import HubConsole.Json.Basic
import HubConsole.Text.Ascii

/-! # Writing JSON

Each item and each member stands on a line of its own, indented by two blanks for each list or
object around it. Only quotes, backslashes and control characters are escaped. -/

namespace HubConsole.Json
open Text

def escape (c : Char) : List Char :=
  match c with
  | '\x22' => ['\\', '\x22']
  | '\\' => ['\\', '\\']
  | '\x08' => ['\\', 'b']
  | '\x0c' => ['\\', 'f']
  | '\n' => ['\\', 'n']
  | '\r' => ['\\', 'r']
  | '\t' => ['\\', 't']
  | c => if c.toNat < 0x20 then '\\' :: 'u' :: hexDigits 4 c.toNat else [c]

def quote (s : String) : List Char := '\x22' :: s.toList.flatMap escape ++ ['\x22']

def newLine (depth : Nat) : List Char := '\n' :: List.replicate (2 * depth) ' '

/-- A string; one that is no text is written as `null`. -/
def writeString : Option String → List Char
  | some s => quote s
  | none => "null".toList

mutual

def write (depth : Nat) : Json → List Char
  | .null => "null".toList
  | .bool b => (if b then "true" else "false").toList
  | .number literal => literal
  | .string text => writeString text
  | .list [] => ['[', ']']
  | .list (v :: vs) =>
    '[' :: newLine (depth + 1) ++ write (depth + 1) v ++ writeItems depth vs ++ [']']
  | .object [] => ['\x7b', '\x7d']
  | .object ((k, v) :: ms) =>
    '\x7b' :: newLine (depth + 1) ++ writeString k ++ [':', ' '] ++ write (depth + 1) v
      ++ writeMembers depth ms ++ ['\x7d']

/-- The items of a list after the first one. -/
def writeItems (depth : Nat) : List Json → List Char
  | [] => newLine depth
  | v :: vs => ',' :: newLine (depth + 1) ++ write (depth + 1) v ++ writeItems depth vs

def writeMembers (depth : Nat) : List (Option String × Json) → List Char
  | [] => newLine depth
  | (k, v) :: ms =>
    ',' :: newLine (depth + 1) ++ writeString k ++ [':', ' '] ++ write (depth + 1) v
      ++ writeMembers depth ms

end

def text (v : Json) : String := String.ofList (write 0 v)

end HubConsole.Json
