/-! # JSON values

Values as they are written: numbers are kept as their digits, and the members of an object in their
order with repeated names. A string in which half of a surrogate pair stands alone is no text. -/

namespace HubConsole

inductive Json where
  | null
  | bool (b : Bool)
  | number (literal : List Char)
  | string (text : Option String)
  | list (items : List Json)
  | object (members : List (Option String × Json))

end HubConsole
