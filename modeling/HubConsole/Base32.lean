/-! # Base 32

Bytes as letters `A`–`Z` and digits `2`–`7`, five bits each, without padding. Reading ignores case
and drops bits at the end that do not fill a byte. Both directions keep the bits that are not yet
out in an accumulator `buffer` of `bits` bits. -/

namespace HubConsole.Base32

def digit? (c : Char) : Option Nat :=
  if 'A' ≤ c ∧ c ≤ 'Z' then some (c.toNat - 'A'.toNat)
  else if 'a' ≤ c ∧ c ≤ 'z' then some (c.toNat - 'a'.toNat)
  else if '2' ≤ c ∧ c ≤ '7' then some (c.toNat - '2'.toNat + 26)
  else none

/-- The digit of value `n`, taken modulo 32. -/
def digit (n : Nat) : Char :=
  let n := n % 32
  if n < 26 then Char.ofNat ('A'.toNat + n) else Char.ofNat ('2'.toNat + (n - 26))

def decodeFrom (buffer bits : Nat) : List Char → Option (List UInt8)
  | [] => some []
  | c :: cs => do
    let v ← digit? c
    let buffer := buffer * 32 + v
    if bits < 3 then decodeFrom buffer (bits + 5) cs
    else
      let bits := bits - 3
      let rest ← decodeFrom (buffer % Nat.pow 2 bits) bits cs
      return UInt8.ofNat (buffer / Nat.pow 2 bits) :: rest

/-- Reads whole bytes, in either letter case. -/
def decode? (cs : List Char) : Option (List UInt8) := decodeFrom 0 0 cs

/-- The digits that `bits` bits of `buffer` fill, first bits first. -/
def fullDigits (buffer bits : Nat) : List Char :=
  if bits < 5 then [] else digit (buffer / Nat.pow 2 (bits - 5)) :: fullDigits buffer (bits - 5)
termination_by bits

def encodeFrom (buffer bits : Nat) : List UInt8 → List Char
  | [] => if bits = 0 then [] else [digit (buffer * Nat.pow 2 (5 - bits))]
  | b :: bs =>
    let buffer := buffer * 256 + b.toNat
    let bits := bits + 8
    fullDigits buffer bits ++ encodeFrom (buffer % Nat.pow 2 (bits % 5)) (bits % 5) bs

/-- The digits of a list of bytes; the last one is filled up with zero bits. -/
def encode (bs : List UInt8) : List Char := encodeFrom 0 0 bs

end HubConsole.Base32
