import HubConsole.Text.Basic

/-! # Lines

A line ends at a newline, which together with one carriage return before it does not belong to the
line. The end of the text ends a line only if the line is not empty. -/

namespace HubConsole.Text

def dropReturn (cs : List Char) : List Char :=
  match cs.reverse with
  | '\r' :: rest => rest.reverse
  | _ => cs

/-- All pieces but the last have a newline after them. -/
def linesOfPieces : List (List Char) → List (List Char)
  | [] => []
  | [last] => if last.isEmpty then [] else [last]
  | p :: q :: rest => dropReturn p :: linesOfPieces (q :: rest)

def linesOf (cs : List Char) : List (List Char) := linesOfPieces (pieces (· == '\n') cs)

def lines (s : String) : List String := (linesOf s.toList).map String.ofList

end HubConsole.Text
