import HubConsole.Count
import HubConsole.Text.Ascii
import HubConsole.Text.Blank

/-! # Intervals of time

An interval is a number of seconds, written as a plain number or as segments such as `1h30m`. -/

namespace HubConsole.Interval
open Text

/-- The number of seconds in a unit, in either letter case. -/
def unitSeconds? (c : Char) : Option Count :=
  match lowerAscii c with
  | 's' => some 1
  | 'm' => some 60
  | 'h' => some 3600
  | 'd' => some 86400
  | 'w' => some 604800
  | _ => none

/-- Adds up the segments, where `digits` holds the digits read since the last unit. -/
def segmentsFrom (total : Count) (digits : List Char) : List Char → Option Count
  | [] => if digits.isEmpty then some total else none
  | c :: cs =>
    if c.isDigit then segmentsFrom total (digits ++ [c]) cs
    else do
      let unit ← if digits.isEmpty then none else unitSeconds? c
      let value ← Count.ofDigits? digits
      let total ← Count.add? total (← Count.mul? value unit)
      segmentsFrom total [] cs

/-- Reads a number of seconds or a list of segments. -/
def ofText? (cs : List Char) : Option Count :=
  let cs := trim cs
  if cs.isEmpty then none
  else if cs.all Char.isDigit then Count.ofDigits? cs
  else segmentsFrom 0 [] cs

def parse? (s : String) : Option Count := ofText? s.toList

def textUnits : List (Nat × Char) :=
  [(604800, 'w'), (86400, 'd'), (3600, 'h'), (60, 'm'), (1, 's')]

/-- Writes `n` seconds in the given units, leaving out those that do not occur. -/
def textIn : List (Nat × Char) → Nat → List Char
  | [], _ => []
  | (size, unit) :: units, n =>
    if size ≤ n then Nat.toDigits 10 (n / size) ++ unit :: textIn units (n % size)
    else textIn units n

/-- The text of an interval, such as `1h30m`. -/
def text (n : Count) : String :=
  if n = 0 then "0s" else String.ofList (textIn textUnits n.toNat)

end HubConsole.Interval
