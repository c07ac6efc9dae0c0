import HubConsole.Json.Reader
import HubConsole.Json.Writer
import HubConsole.Setting.Store

/-! # Settings documents

The stored values as a JSON document: an object whose member `vars` lists them, each one an object
of an id, a name and a value. Both kinds of object may also be written as the list of their values.
-/

namespace HubConsole.Setting

def members (name : String) (ms : List (Option String × Json)) : List Json :=
  (ms.filter fun m => m.1 == some name).map (·.2)

def hasNames (ms : List (Option String × Json)) : Bool := ms.all fun m => m.1.isSome

def member? (name : String) (ms : List (Option String × Json)) : Option Json :=
  match members name ms with
  | [v] => some v
  | _ => none

/-- The id that a number writes: digits only, within 64 bits. -/
def idOf? : Json → Option HubId
  | .number literal => Count.ofDigits? literal
  | _ => none

def textOf? : Json → Option String
  | .string text => text
  | _ => none

def entryOf? (scope name value : Json) : Option Entry := do
  return ⟨← idOf? scope, ← textOf? name, ← textOf? value⟩

def Entry.ofJson? : Json → Option Entry
  | .list [scope, name, value] => entryOf? scope name value
  | .object ms => do
    if !hasNames ms then none
    entryOf? (← member? "scope" ms) (← member? "name" ms) (← member? "value" ms)
  | _ => none

def entriesOf? : Json → Option (List Entry)
  | .list vs => vs.mapM Entry.ofJson?
  | _ => none

/-- Reads the stored values of a document, none of them if it has no list of them. -/
def documentOf? : Json → Option (List Entry)
  | .list [] => some []
  | .list [vars] => entriesOf? vars
  | .object ms =>
    if hasNames ms then
      match members "vars" ms with
      | [] => some []
      | [vars] => entriesOf? vars
      | _ => none
    else none
  | _ => none

def Entry.toJson (e : Entry) : Json :=
  .object [
    (some "scope", .number (Count.text e.scope).toList),
    (some "name", .string (some e.name)),
    (some "value", .string (some e.value))]

def document (es : List Entry) : Json := .object [(some "vars", .list (es.map Entry.toJson))]

def readDocument? (s : String) : Option (List Entry) := (Json.parse? s.toList).bind documentOf?

def writeDocument (es : List Entry) : String := (document es).text

inductive Content where
  /-- There is no file, which is as good as a document without values. -/
  | missing
  | unreadable (cause : String)
  | bytes (b : ByteArray)

namespace Content

inductive Error where
  | noHome
  | malformed (path detail : String)
  | io (path detail : String)
deriving DecidableEq, Repr

def Error.message : Error → String
  | noHome => "Settings location unknown: no home directory"
  | malformed path detail => s!"Invalid JSON in {path}: {detail}"
  | io path detail => s!"IO error on {path}: {detail}"

/-- The stored values in the order of the file. -/
def load (path : String) : Content → Except Error (List Entry)
  | missing => pure []
  | unreadable cause => throw (.io path cause)
  | bytes b =>
    match String.fromUTF8? b with
    | none => throw (.io path "stream did not contain valid UTF-8")
    | some s => match readDocument? s with
      | some es => pure es
      | none => throw (.malformed path "not a settings document")

end Content

def settingsPath (home : String) : String :=
  String.ofList (pathBelow home.toList ".config/dcline/settings.json".toList)

end HubConsole.Setting
