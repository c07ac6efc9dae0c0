import HubConsole.Glob
import HubConsole.Setting.Entries

/-! # The store of settings

A setting is resolved in tiers: a value stored for the hub comes before the global one, and that
before the default. Reading, assigning and clearing a setting respect the tiers that its definition
allows. The program's own notes on hubs are read and written as they are. -/

namespace HubConsole
open Text Setting

/-- The stored values. `home` is the directory that a tilde in a path stands for. -/
structure Store where
  home : String
  entries : List Entry
  sorted : Sorted entries

namespace Store

inductive Action where
  | read
  | assign
  | clear
deriving DecidableEq, Repr

inductive Error where
  | unknown (name : String)
  | globalOnly (name : String) (action : Action)
  | hubOnly (name : String) (action : Action)
  | invalid (e : Value.Error)
  | refused (e : Check.Error)
deriving DecidableEq, Repr

def Error.message : Error → String
  | unknown name => s!"No variable named '{name}'."
  | globalOnly name .clear => s!"'{name}' is a global setting, use /unset instead."
  | globalOnly name _ => s!"'{name}' is a global setting, use /set instead."
  | hubOnly name .clear => s!"'{name}' is a hub setting, use /hunset instead."
  | hubOnly name _ => s!"'{name}' is a hub setting, use /hset instead."
  | invalid e => e.message
  | refused e => e.message

inductive Origin where
  | hub
  | global
  | default
deriving DecidableEq, Repr

def Origin.name : Origin → String
  | hub => "hub"
  | global => "global"
  | default => "default"

inductive Resolved where
  | unset
  | set (raw display : String) (origin : Origin)
deriving DecidableEq, Repr

namespace Resolved

def text : Resolved → String
  | unset => "not set"
  | set _ display _ => display

def origin? : Resolved → Option Origin
  | unset => none
  | set _ _ origin => some origin

end Resolved

def empty (home : String) : Store := ⟨home, [], by simp [Sorted]⟩

/-- The value stored under an id, without regard to other tiers. -/
def get? (s : Store) (scope : HubId) (name : String) : Option String :=
  findEntry? scope name s.entries

def set (s : Store) (scope : HubId) (name value : String) : Store :=
  ⟨s.home, insertEntry ⟨scope, name, value⟩ s.entries, s.sorted.insertEntry⟩

def erase (s : Store) (scope : HubId) (name : String) : Store :=
  ⟨s.home, eraseEntry scope name s.entries, s.sorted.eraseEntry⟩

section
variable (s : Store) (scope scope' : HubId) (name name' value : String)

@[simp] theorem home_set : (s.set scope name value).home = s.home := rfl

@[simp] theorem get?_empty (home : String) : (empty home).get? scope name = none := rfl

theorem get?_set : (s.set scope' name' value).get? scope name =
    if scope' = scope ∧ name' = name then some value else s.get? scope name := by
  rw [get?, set, findEntry?_insertEntry]
  simp [Entry.isAt, get?]

@[simp] theorem get?_set_self : (s.set scope name value).get? scope name = some value := by
  rw [get?_set, if_pos ⟨rfl, rfl⟩]

theorem get?_erase : (s.erase scope' name').get? scope name =
    if scope' = scope ∧ name' = name then none else s.get? scope name :=
  findEntry?_eraseEntry _ _ _

variable {s}

theorem mem_entries_iff {e : Entry} : e ∈ s.entries ↔ s.get? e.scope e.name = some e.value :=
  s.sorted.mem_iff

end

/-- The store of a list of values, of which later ones replace earlier ones. -/
def ofEntries (home : String) (es : List Entry) : Store :=
  es.foldl (fun s e => s.set e.scope e.name e.value) (empty home)

def definition (name : String) : Except Error Definition :=
  match Setting.find? name with
  | some d => if d.hidden then throw (.unknown name) else pure d
  | none => throw (.unknown name)

def checkTier (d : Definition) (scope : Scope) (action : Action) : Except Error Unit :=
  if d.tiers.allows scope then pure ()
  else match scope with
    | .hub _ => throw (.globalOnly d.name action)
    | .global => throw (.hubOnly d.name action)

def effectiveRaw? (s : Store) (d : Definition) (scope : Scope) : Option (String × Origin) :=
  let ofHub : Option String := match scope with
    | .hub id => if d.tiers.allowsHub then s.get? id d.name else none
    | .global => none
  match ofHub with
  | some raw => some (raw, .hub)
  | none =>
    match if d.tiers.allowsGlobal then s.get? 0 d.name else none with
    | some raw => some (raw, .global)
    | none => d.default?.map (·, .default)

/-- How a stored text is shown: as the value it stands for, or as it is if it stands for none. -/
def displayOf (s : Store) (d : Definition) (raw : String) : String :=
  match d.kind.parse s.home raw with
  | .ok value => value.display
  | .error _ => raw

def effective (s : Store) (d : Definition) (scope : Scope) : Resolved :=
  match s.effectiveRaw? d scope with
  | some (raw, origin) => .set raw (s.displayOf d raw) origin
  | none => .unset

def resolve (s : Store) (scope : Scope) (name : String) : Except Error Resolved := do
  let d ← definition name
  checkTier d scope .read
  return s.effective d scope

/-- The canonical text that is stored for an accepted value of a setting. -/
def canonical (s : Store) (d : Definition) (raw : String) : Except Error String := do
  let value ← match d.kind.parse s.home raw with
    | .ok value => pure value
    | .error e => throw (.invalid e)
  match d.check? with
  | none => return value.raw
  | some check => match check.run value.raw with
    | .ok _ => return value.raw
    | .error e => throw (.refused e)

/-- Stores a value; the result tells what the setting then amounts to. -/
def assign (s : Store) (scope : Scope) (name raw : String) : Except Error (Store × Resolved) := do
  let d ← definition name
  checkTier d scope .assign
  let value ← s.canonical d raw
  let s := s.set scope.id d.name value
  return (s, s.effective d scope)

def clear (s : Store) (scope : Scope) (name : String) : Except Error (Store × Resolved) := do
  let d ← definition name
  checkTier d scope .clear
  let s := s.erase scope.id d.name
  return (s, s.effective d scope)

/-- The settings of a scope whose names match a pattern, all without one. -/
def list (s : Store) (scope : Scope) (pattern? : Option String) : List (Definition × Resolved) :=
  let fits : Option (String → Bool) := match pattern? with
    | none => some fun _ => true
    | some pattern => (Glob.parse? pattern).map Glob.matchesName
  match fits with
  | none => []
  | some fits =>
    (visible.filter fun d => d.tiers.allows scope && fits d.name).map fun d =>
      (d, s.effective d scope)

/-- Whether a pattern matches a setting that the scope does not have. -/
def matchesElsewhere (scope : Scope) (pattern : String) : Bool :=
  match Glob.parse? pattern with
  | none => false
  | some pieces =>
    visible.any fun d => !d.tiers.allows scope && Glob.matchesName pieces d.name

def names (scope : Scope) (lead : String) : List String :=
  (visible.filter fun d => d.tiers.allows scope && startsWith d.name lead).map (·.name)

/-- Completions of a value typed in part: the present value first, then those of the kind. -/
def suggestValue (s : Store) (scope : Scope) (name typed : String) : List String :=
  match Setting.find? name with
  | none => []
  | some d =>
    if d.hidden || !d.tiers.allows scope then []
    else
      let present := match s.effectiveRaw? d scope with
        | some (raw, _) => if startsWith raw typed then [raw] else []
        | none => []
      (d.kind.suggest typed).foldl (fun out w => if out.contains w then out else out ++ [w]) present

/-- The value of a setting, for the program's own use: no tier is refused. -/
def value? (s : Store) (scope : Scope) (name : String) : Option Value := do
  let d ← Setting.find? name
  let (raw, _) ← s.effectiveRaw? d scope
  (d.kind.parse s.home raw).toOption

def flag (s : Store) (scope : Scope) (name : String) : Bool :=
  s.value? scope name == some (.bool true)

def hubs (s : Store) : List (HubId × String) :=
  (s.entries.filter fun e => e.scope != 0 && e.name == hubName).map fun e => (e.scope, e.value)

def hubIds (s : Store) : List HubId := s.hubs.map (·.1)

def findHub? (s : Store) (name : String) : Option HubId :=
  (s.hubs.find? fun h => h.2 == name).map (·.1)

def usedIds (s : Store) : List HubId := (s.entries.map (·.scope)).eraseDups

def maxHubId : Nat := UInt64.size - 1

/-- The smallest id from 1 on that is not in `used`. One of the first `used.length + 1` ids is
free, as far as there are so many. -/
def smallestFree? (used : List HubId) : Option HubId :=
  ((List.range (min (used.length + 1) maxHubId)).map fun i => UInt64.ofNat (i + 1)).find?
    fun id => !used.contains id

/-- An id under which nothing is stored: the one after the largest, or the smallest free one if
there is none after it. -/
def unusedHubId? (s : Store) : Option HubId :=
  let last := (s.usedIds.getLast?.map UInt64.toNat).getD 0
  if last < maxHubId then some (UInt64.ofNat (last + 1)) else smallestFree? s.usedIds

end Store
end HubConsole
