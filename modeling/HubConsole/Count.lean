/-! # Counts of 64 bits

Ids, sizes and numbers of seconds are unsigned numbers of 64 bits. Arithmetic on them is checked:
an operation whose exact result does not fit has no result. -/

namespace HubConsole

abbrev Count := UInt64

namespace Count

def ofNat? (n : Nat) : Option Count :=
  if h : n < UInt64.size then some (UInt64.ofNatLT n h) else none

theorem ofNat?_eq_some_iff {n : Nat} {u : Count} : ofNat? n = some u ↔ u.toNat = n := by
  unfold ofNat?
  split
  · next h =>
    constructor
    · rintro ⟨rfl⟩; simp
    · rintro rfl; simp
  · next h =>
    constructor
    · intro hu; cases hu
    · rintro rfl; exact absurd u.toNat_lt_size h

theorem ofNat?_eq_none_iff {n : Nat} : ofNat? n = none ↔ UInt64.size ≤ n := by
  unfold ofNat?
  split <;> simp <;> omega

@[simp] theorem ofNat?_toNat (u : Count) : ofNat? u.toNat = some u := ofNat?_eq_some_iff.2 rfl

/-- A number that is out of range stays so as long as nothing is taken away. -/
theorem ofNat?_bind {f : Nat → Nat} {n : Nat} (h : n ≤ f n) :
    ((ofNat? n).bind fun u => ofNat? (f u.toNat)) = ofNat? (f n) := by
  cases hn : ofNat? n with
  | none => exact (ofNat?_eq_none_iff.2 (Nat.le_trans (ofNat?_eq_none_iff.1 hn) h)).symm
  | some u => rw [Option.bind_some, ofNat?_eq_some_iff.1 hn]

def mul? (a b : Count) : Option Count := ofNat? (a.toNat * b.toNat)

def add? (a b : Count) : Option Count := ofNat? (a.toNat + b.toNat)

def digitsValue (ds : List Char) : Nat := ds.foldl (fun n d => 10 * n + (d.toNat - '0'.toNat)) 0

/-- Reads a non-empty run of ASCII digits, leading zeros allowed. -/
def ofDigits? (ds : List Char) : Option Count :=
  if !ds.isEmpty && ds.all Char.isDigit then ofNat? (digitsValue ds) else none

def text (u : Count) : String := Nat.repr u.toNat

end Count

/-- The quotient rounded to the nearest whole number, a half to the even neighbour. -/
def roundDiv (num den : Nat) : Nat :=
  let q := num / den
  let r := num % den
  if 2 * r < den then q else if den < 2 * r then q + 1 else if q % 2 = 0 then q else q + 1

/-- The first number above the signed numbers of 64 bits. -/
def signedLimit : Int := 9223372036854775808

/-- Reads a signed number of 64 bits: an optional `+` or `-`, then ASCII digits. -/
def signedOfText? (cs : List Char) : Option Int :=
  let read (ds : List Char) (sign : Int) : Option Int :=
    if !ds.isEmpty && ds.all Char.isDigit then
      let n := sign * Count.digitsValue ds
      if -signedLimit ≤ n ∧ n < signedLimit then some n else none
    else none
  match cs with
  | '+' :: ds => read ds 1
  | '-' :: ds => read ds (-1)
  | ds => read ds 1

end HubConsole
