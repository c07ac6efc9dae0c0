import HubConsole.Alignment
import HubConsole.Command.Manual
import HubConsole.Text.Basic

/-! # The registry of commands

The entries of the commands that exist, in the order of their names. Each name occurs once. -/

namespace HubConsole.Command
open Text

structure Registry where
  docs : List Doc
deriving DecidableEq, Repr

inductive Registry.Error where
  | duplicate (name : String)
deriving DecidableEq, Repr

namespace Registry

def Error.message : Error → String
  | duplicate name => s!"command /{name} is registered twice"

def empty : Registry := ⟨[]⟩

def get? (r : Registry) (name : String) : Option Doc := r.docs.find? fun d => d.name == name

/-- The entries with `d` before the first one of a larger name. -/
def insertDoc (d : Doc) : List Doc → List Doc
  | [] => [d]
  | e :: es => if d.name < e.name then d :: e :: es else e :: insertDoc d es

def add (r : Registry) (name : String) : Except Error Registry :=
  match r.get? name with
  | some _ => throw (.duplicate name)
  | none => pure ⟨insertDoc (.of name) r.docs⟩

def addAll (r : Registry) : List String → Except Error Registry
  | [] => pure r
  | name :: names => do (← r.add name).addAll names

def ofNames (names : List String) : Except Error Registry := empty.addAll names

def names (r : Registry) : List String := r.docs.map (·.name)

def namesWith (r : Registry) (lead : String) : List String :=
  r.names.filter fun name => startsWith name lead

/-- Scored names from the highest score down. Those that score alike keep their order. -/
def ranked (scored : List (String × Int)) : List (String × Int) :=
  scored.mergeSort fun a b => b.2 ≤ a.2

/-- The first name among those with the highest score. -/
def best? (scored : List (String × Int)) : Option String := (ranked scored).head?.map (·.1)

def closestBy? (score? : String → String → Option Int) (r : Registry) (typed : String) :
    Option String :=
  if typed == "" then none
  else best? (r.names.filterMap fun name => (score? name typed).map (name, ·))

def closest? (r : Registry) (typed : String) : Option String :=
  r.closestBy? Alignment.score? typed

end Registry
end HubConsole.Command
