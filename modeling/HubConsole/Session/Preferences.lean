import HubConsole.Session.Chat

/-! # Reading and changing settings

Settings are read and changed at one tier: globally, or for the hub of the current tab. -/

namespace HubConsole.Session
open Text

inductive Tier where
  | global
  | hub
deriving DecidableEq, Repr

namespace Tier

def setCommand : Tier → String
  | global => "set"
  | hub => "hset"

def unsetCommand : Tier → String
  | global => "unset"
  | hub => "hunset"

def other : Tier → Tier
  | global => hub
  | hub => global

end Tier

def scopeOf? (s : Session) : Tier → Option Scope
  | .global => some .global
  | .hub => s.currentHub?.map .hub

def scopeOf (s : Session) (tier : Tier) : Attempt Scope :=
  match s.scopeOf? tier with
  | some scope => pure scope
  | none => throw .needsHubOrUserTab

/-- The note on where a value comes from, where that is not the scope itself. -/
def originNote (scope : Scope) : Option Store.Origin → String
  | some .global => if scope = .global then "" else " (global)"
  | some .default => " (default)"
  | _ => ""

def settingLine (scope : Scope) (d : Setting.Definition) (r : Store.Resolved) : String :=
  s!"{padRight 20 d.name} {r.text}{originNote scope r.origin?}"

def isWild (key : String) : Bool := occursIn '*' key || occursIn '?' key || occursIn '[' key

/-- Shows the settings that a key names or matches, all without a key. -/
def showSettings (s : Session) (tier : Tier) (scope : Scope) (key : String) : Attempt Session :=
  match s.store.list scope (if key == "" then none else some key) with
  | [] =>
    if isWild key then
      if Store.matchesElsewhere scope key then throw (.otherTier tier.other.setCommand)
      else throw (.noMatch key)
    else match s.store.resolve scope key with
      | .ok r => return s.info s!"{key} {r.text}"
      | .error e => throw (.badSetting e)
  | found => return s.info (joinWith "\n" (found.map fun f => settingLine scope f.1 f.2))

/-- Shows settings, or assigns a value to one if there is text after the key. -/
def set (s : Session) (tier : Tier) (args : String) : Attempt Session := do
  let scope ← s.scopeOf tier
  let key := String.ofList (args.toList.takeWhile fun c => !isBlank c)
  let value := String.ofList (trim (args.toList.dropWhile fun c => !isBlank c))
  if value == "" then s.showSettings tier scope key
  else match s.store.assign scope key value with
    | .ok (store, r) => return { s with store }.info s!"{key} set to {r.text}."
    | .error e => throw (.badSetting e)

def unset (s : Session) (tier : Tier) (name : String) : Attempt Session := do
  let scope ← s.scopeOf tier
  if name == "" then throw (.missingSetting tier.unsetCommand)
  match s.store.clear scope name with
  | .ok (store, .unset) => return { s with store }.info s!"{name} reset, now not set."
  | .ok (store, r) => return { s with store }.info s!"{name} reset to {r.text}."
  | .error e => throw (.badSetting e)

end HubConsole.Session
