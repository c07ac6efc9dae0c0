import HubConsole.Count
import HubConsole.Text.Ascii
import HubConsole.Text.Blank

/-! # Sizes and speeds

A size is a number of bytes, written with an optional binary unit; a speed is a size per second.
Reading is exact. Writing shows two decimals of the nearest double, in the largest unit that leaves
at least one. -/

namespace HubConsole.Size
open Text

def unitExponent? (unit : List Char) : Option Nat :=
  match String.ofList (unit.map lowerAscii) with
  | "" | "b" => some 0
  | "k" | "kb" | "kib" => some 1
  | "m" | "mb" | "mib" => some 2
  | "g" | "gb" | "gib" => some 3
  | "t" | "tb" | "tib" => some 4
  | _ => none

/-- Reads digits, optional blanks and an optional unit. -/
def ofText? (cs : List Char) : Option Count := do
  let cs := trim cs
  let value ← Count.ofDigits? (cs.takeWhile Char.isDigit)
  let exponent ← unitExponent? (trimStart (cs.dropWhile Char.isDigit))
  Count.ofNat? (value.toNat * Nat.pow 1024 exponent)

def parse? (s : String) : Option Count := ofText? s.toList

def dropPerSecond (cs : List Char) : List Char :=
  match cs.reverse with
  | 's' :: '/' :: rest | 'S' :: '/' :: rest => rest.reverse
  | _ => cs

/-- Reads a speed in bytes per second: a size with an optional `/s`. -/
def parseSpeed? (s : String) : Option Count := ofText? (dropPerSecond (trim s.toList))

/-- The nearest number with 53 significant bits, a half to the even neighbour. -/
def toDouble (n : Nat) : Nat :=
  let shift := n.log2 - 52
  roundDiv n (Nat.pow 2 shift) * Nat.pow 2 shift

/-- The exponent of the largest unit not above `n` bytes. -/
def unitOf (n : Nat) : Nat :=
  if n < 1024 then 0 else if n < Nat.pow 1024 2 then 1 else if n < Nat.pow 1024 3 then 2
  else if n < Nat.pow 1024 4 then 3 else 4

def unitName : Nat → String
  | 0 => "B"
  | 1 => "KiB"
  | 2 => "MiB"
  | 3 => "GiB"
  | _ => "TiB"

def hundredths (h : Nat) : String :=
  Nat.repr (h / 100) ++ "." ++ Nat.repr (h % 100 / 10) ++ Nat.repr (h % 10)

/-- The text of a size: whole bytes below 1024, else two decimals and a unit. -/
def text (n : Count) : String :=
  if n.toNat < 1024 then Nat.repr n.toNat ++ " B"
  else
    let value := toDouble n.toNat
    let unit := unitOf value
    hundredths (roundDiv (100 * value) (Nat.pow 1024 unit)) ++ " " ++ unitName unit

def speedText (n : Count) : String := text n ++ "/s"

end HubConsole.Size
