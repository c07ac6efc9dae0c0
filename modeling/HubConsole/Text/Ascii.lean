/-! # Letters and digits of ASCII

Letter case, digits and hexadecimal digits where only ASCII counts: every other character is kept
as it is and belongs to none of the classes. -/

namespace HubConsole.Text

/-- The lower-case form of an ASCII letter; any other character unchanged. -/
def lowerAscii (c : Char) : Char := c.toLower

def upperAscii (c : Char) : Char := c.toUpper

def lowerAsciiAll (s : String) : String := String.ofList (s.toList.map lowerAscii)

@[simp] theorem toList_lowerAsciiAll (s : String) :
    (lowerAsciiAll s).toList = s.toList.map lowerAscii := by
  simp [lowerAsciiAll]

/-- Equality of texts up to the case of ASCII letters. -/
def sameIgnoringCase (s t : String) : Bool :=
  s.toList.map lowerAscii == t.toList.map lowerAscii

def isHexDigit (c : Char) : Bool :=
  c.isDigit || ('a' ≤ c && c ≤ 'f') || ('A' ≤ c && c ≤ 'F')

def hexDigit? (c : Char) : Option Nat :=
  if c.isDigit then some (c.toNat - '0'.toNat)
  else if 'a' ≤ c ∧ c ≤ 'f' then some (c.toNat - 'a'.toNat + 10)
  else if 'A' ≤ c ∧ c ≤ 'F' then some (c.toNat - 'A'.toNat + 10)
  else none

def hexChar (n : Nat) : Char := Nat.digitChar (n % 16)

/-- The last `width` hexadecimal digits of `n`. -/
def hexDigits : Nat → Nat → List Char
  | 0, _ => []
  | width + 1, n => hexDigits width (n / 16) ++ [hexChar n]

end HubConsole.Text
