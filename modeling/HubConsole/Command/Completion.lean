import HubConsole.Command.Basic

/-! # Completion

Completions of a line typed in part. A completion of a command's arguments stands for all of them;
a completion of a line stands for the whole line. -/

namespace HubConsole
open Text

/-- Where names end that are completed within a text. -/
def endsNick (c : Char) : Bool := c == ' ' || c == ',' || c == ':'

def prepend (head : String) (words : List String) : List String := words.map (head ++ ·)

namespace Session

/-- The names of the users of a hub that start with `typed` in any letter case, in order. -/
def nicks (s : Session) (hub : HubId) (typed : String) : List String :=
  let names := (s.link.users hub).map (·.name)
  (names.filter fun name => startsWith (lowered name) (lowered typed)).mergeSort
    fun a b => lowered a ≤ lowered b

/-- Completes the name at the end of a text. With `addressed`, a name at its start is followed by a
colon. -/
def completeNick (s : Session) (args : String) (addressed : Bool) : List String :=
  match s.currentHub? with
  | none => []
  | some hub =>
    let (head, typed) := cutAfterLast endsNick args.toList
    let names := s.nicks hub (String.ofList typed)
    if addressed && head.isEmpty then names.map (· ++ ": ") else prepend (String.ofList head) names

def completeHub (s : Session) (args : String) : List String :=
  let (head, typed) := match dropLead? "-n ".toList args.toList with
    | some rest => ("-n ", String.ofList rest)
    | none => ("", args)
  if occursIn ' ' typed then []
  else prepend head (s.store.hubNames.filter fun name => startsWith name typed)

def completeSetting (s : Session) (tier : Tier) (args : String) : List String :=
  match s.scopeOf? tier with
  | none => []
  | some scope =>
    match cutFirst? ' ' args.toList with
    | none => Store.names scope args
    | some (key, typed) =>
      let key := String.ofList key
      prepend (key ++ " ") (s.store.suggestValue scope key (String.ofList typed))

def completeSettingName (s : Session) (tier : Tier) (args : String) : List String :=
  match s.scopeOf? tier with
  | none => []
  | some scope => if occursIn ' ' args then [] else Store.names scope args

end Session

namespace Command

def helpScope? : String → Option Setting.Tiers
  | "set" => some .global
  | "hset" => some .hub
  | _ => none

def settingsOf (tier : Setting.Tiers) : List Setting.Definition :=
  Setting.visible.filter fun d => d.tiers = tier || d.tiers = .both

def completeHelp (args : String) : List String :=
  match cutFirst? ' ' args.toList with
  | none =>
    let topics := registry.namesWith args
    if startsWith "keys" args then (topics ++ ["keys"]).mergeSort fun a b => a ≤ b else topics
  | some (topic, typed) =>
    let topic := String.ofList topic
    let typed := String.ofList typed
    let words :=
      if topic == "keys" then KeySection.all.map (·.name)
      else match helpScope? topic with
        | some tier => (settingsOf tier).map (·.name)
        | none => []
    prepend (topic ++ " ") (words.filter fun word => startsWith word typed)

def complete (c : Command) (s : Session) (args : String) : List String :=
  match c with
  | say => s.completeNick args true
  | me | kick | whois | grant => s.completeNick args false
  | msg => if occursIn ' ' args then [] else s.completeNick args false
  | openHub => s.completeHub args
  | set tier => s.completeSetting tier args
  | unset tier => s.completeSettingName tier args
  | ungrant => s.grants.names args
  | help => completeHelp args
  | _ => []

end Command

namespace Completion

def limit : Nat := 20

/-- Adds a completion, unless it is there already or as long as what was typed, or there are
enough. -/
def offer (typed : String) (out : List String) (word : String) : List String :=
  if out.length = limit ∨ byteLength word.toList = byteLength typed.toList ∨ word ∈ out then out
  else out ++ [word]

def select (typed : String) (words : List String) : List String := words.foldl (offer typed) []

/-- The names of commands that go on from `typed`, each after a slash and before a blank. -/
def commandNames (typed : String) : List String :=
  ((Command.registry.namesWith typed).filter fun name => name != typed).map ("/" ++ · ++ " ")

def candidates (s : Session) (typed : String) : List String :=
  match typed.toList with
  | '/' :: rest =>
    match cutFirst? ' ' rest with
    | none => commandNames (String.ofList rest)
    | some (name, args) =>
      match Command.ofName? (String.ofList name) with
      | none => []
      | some c => prepend s!"/{c.name} " (c.complete s (String.ofList args))
  | _ => Command.say.complete s typed

/-- A text that takes the place of the part of a line between two byte positions. -/
structure Replacement where
  text : String
  start : Nat
  stop : Nat
  spaced : Bool
deriving DecidableEq, Repr

/-- The characters in the first `n` bytes, unless a character lies across the end of them. -/
def takeBytes? : Nat → List Char → Option (List Char)
  | 0, _ => some []
  | _ + 1, [] => none
  | n + 1, c :: cs =>
    if c.utf8Size ≤ n + 1 then (takeBytes? (n + 1 - c.utf8Size) cs).map (c :: ·) else none
termination_by n => n
decreasing_by have := c.utf8Size_pos; omega

end Completion

namespace Session
open Completion

def suggest (s : Session) (typed : String) : List String := select typed (candidates s typed)

/-- The completions offered when the cursor stands at a byte position of a line. -/
def suggestAt (s : Session) (line : String) (position : Nat) : List Replacement :=
  match takeBytes? position line.toList with
  | none => []
  | some typed => (s.suggest (String.ofList typed)).map fun text => ⟨text, 0, position, false⟩

end Session
end HubConsole
