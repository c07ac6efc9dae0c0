/-! # Messages to the user -/

namespace HubConsole

inductive Level where
  | info
  | error
deriving DecidableEq, Repr

/-- A message, which may have several lines. -/
structure Message where
  level : Level
  text : String
deriving DecidableEq, Repr

end HubConsole
