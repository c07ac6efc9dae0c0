import HubConsole.Json.Basic
import HubConsole.Json.Token

/-! # Reading JSON

The reader goes through the tokens one by one. It keeps the lists and objects that are still open,
innermost first, and what it waits for. -/

namespace HubConsole.Json

/-- An open list or object that waits for a value. -/
inductive Frame where
  | item (before : List Json)
  | member (before : List (Option String × Json)) (key : Option String)

inductive Reading where
  | value (fs : List Frame)
  | firstItem (fs : List Frame)
  | afterItem (items : List Json) (fs : List Frame)
  | firstKey (fs : List Frame)
  | nextKey (members : List (Option String × Json)) (fs : List Frame)
  | afterKey (members : List (Option String × Json)) (key : Option String) (fs : List Frame)
  | afterMember (members : List (Option String × Json)) (fs : List Frame)
  | finished (v : Json)

namespace Reading

/-- A value is complete: it belongs to the innermost open list or object. -/
def give (v : Json) : List Frame → Reading
  | [] => finished v
  | .item items :: fs => afterItem (items ++ [v]) fs
  | .member members key :: fs => afterMember (members ++ [(key, v)]) fs

def begin? (fs : List Frame) : Token → Option Reading
  | .null => some (give .null fs)
  | .bool b => some (give (.bool b) fs)
  | .number literal => some (give (.number literal) fs)
  | .string text => some (give (.string text) fs)
  | .openList => some (firstItem fs)
  | .openObject => some (firstKey fs)
  | _ => none

def step? : Reading → Token → Option Reading
  | value fs, t => begin? fs t
  | firstItem fs, .closeList => some (give (.list []) fs)
  | firstItem fs, t => begin? (.item [] :: fs) t
  | afterItem items fs, .comma => some (value (.item items :: fs))
  | afterItem items fs, .closeList => some (give (.list items) fs)
  | firstKey fs, .closeObject => some (give (.object []) fs)
  | firstKey fs, .string k => some (afterKey [] k fs)
  | nextKey members fs, .string k => some (afterKey members k fs)
  | afterKey members k fs, .colon => some (value (.member members k :: fs))
  | afterMember members fs, .comma => some (nextKey members fs)
  | afterMember members fs, .closeObject => some (give (.object members) fs)
  | _, _ => none

def run? : Reading → List Token → Option Reading
  | r, [] => some r
  | r, t :: ts => (r.step? t).bind fun r => run? r ts

def result? : Reading → Option Json
  | finished v => some v
  | _ => none

end Reading

def parse? (cs : List Char) : Option Json := do
  let ts ← tokens? cs
  let r ← Reading.run? (.value []) ts
  r.result?

end HubConsole.Json
