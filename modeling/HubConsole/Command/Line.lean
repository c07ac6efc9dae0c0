import HubConsole.Text.Basic
import HubConsole.Text.Blank

/-! # Input lines

A line that starts with a slash names a command; any other line is a chat message, which is the
argument of `say` as it stands. -/

namespace HubConsole.Command
open Text

def chatName : String := "say"

structure Line where
  name : String
  args : String
deriving DecidableEq, Repr

namespace Line

def splitName (cs : List Char) : List Char × List Char := (cutFirst? ' ' cs).getD (cs, [])

/-- The line of a name and its arguments, which are trimmed for all commands but `say`. -/
def make (name args : List Char) : Line :=
  let name := String.ofList name
  ⟨name, String.ofList (if name == chatName then args else trim args)⟩

/-- Reads a line; a blank one names no command. -/
def parse? (line : String) : Option Line :=
  match trimStart line.toList with
  | [] => none
  | '/' :: rest => some (make (splitName rest).1 (splitName rest).2)
  | _ :: _ => some ⟨chatName, line⟩

end Line
end HubConsole.Command
