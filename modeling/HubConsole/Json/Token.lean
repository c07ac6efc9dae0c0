import HubConsole.Text.Ascii

/-! # Tokens of JSON

Splits a text into tokens. Only blanks, tabs, newlines and carriage returns may stand between
tokens. -/

namespace HubConsole.Json
open Text

inductive Token where
  | openList
  | closeList
  | openObject
  | closeObject
  | comma
  | colon
  | null
  | bool (b : Bool)
  | number (literal : List Char)
  | string (text : Option String)
deriving DecidableEq, Repr

/-- A character between quotes, or half of a surrogate pair that is written as an escape. -/
inductive CodeUnit where
  | char (c : Char)
  | high (n : Nat)
  | low (n : Nat)
deriving DecidableEq, Repr

def CodeUnit.ofNat (n : Nat) : CodeUnit :=
  if 0xD800 ≤ n ∧ n < 0xDC00 then .high (n - 0xD800)
  else if 0xDC00 ≤ n ∧ n < 0xE000 then .low (n - 0xDC00)
  else .char (Char.ofNat n)

/-- The text of units, if each half of a pair has its other half. -/
def text? : List CodeUnit → Option (List Char)
  | [] => some []
  | .char c :: us => (text? us).map (c :: ·)
  | .high h :: .low l :: us => (text? us).map (Char.ofNat (0x10000 + 0x400 * h + l) :: ·)
  | _ :: _ => none

def escaped? : Char → Option Char
  | '\x22' => some '\x22'
  | '\\' => some '\\'
  | '/' => some '/'
  | 'b' => some '\x08'
  | 'f' => some '\x0c'
  | 'n' => some '\n'
  | 'r' => some '\r'
  | 't' => some '\t'
  | _ => none

def hexValue? (a b c d : Char) : Option Nat := do
  return 4096 * (← hexDigit? a) + 256 * (← hexDigit? b) + 16 * (← hexDigit? c) + (← hexDigit? d)

def isControl (c : Char) : Bool := c.toNat < 0x20

def units? : List Char → Option (List CodeUnit × List Char)
  | [] => none
  | '\x22' :: rest => some ([], rest)
  | '\\' :: 'u' :: a :: b :: c :: d :: rest => do
    let n ← hexValue? a b c d
    let (us, rest) ← units? rest
    return (.ofNat n :: us, rest)
  | '\\' :: e :: rest => do
    let c ← escaped? e
    let (us, rest) ← units? rest
    return (.char c :: us, rest)
  | c :: rest =>
    if isControl c then none else (units? rest).map fun u => (.char c :: u.1, u.2)

def digits? (cs : List Char) : Option (List Char × List Char) :=
  match cs.takeWhile Char.isDigit with
  | [] => none
  | ds => some (ds, cs.dropWhile Char.isDigit)

/-- A whole number without needless zeros. -/
def whole? : List Char → Option (List Char × List Char)
  | '0' :: rest => some (['0'], rest)
  | cs => digits? cs

def fraction? : List Char → Option (List Char × List Char)
  | '.' :: rest => (digits? rest).map fun d => ('.' :: d.1, d.2)
  | cs => some ([], cs)

def signed? : List Char → Option (List Char × List Char)
  | '+' :: rest => (digits? rest).map fun d => ('+' :: d.1, d.2)
  | '-' :: rest => (digits? rest).map fun d => ('-' :: d.1, d.2)
  | cs => digits? cs

def exponent? : List Char → Option (List Char × List Char)
  | 'e' :: rest => (signed? rest).map fun d => ('e' :: d.1, d.2)
  | 'E' :: rest => (signed? rest).map fun d => ('E' :: d.1, d.2)
  | cs => some ([], cs)

def unsigned? (cs : List Char) : Option (List Char × List Char) := do
  let (whole, cs) ← whole? cs
  let (fraction, cs) ← fraction? cs
  let (exponent, cs) ← exponent? cs
  return (whole ++ fraction ++ exponent, cs)

/-- The first token of a text that does not start with a blank, and the text after it. -/
def token? : List Char → Option (Token × List Char)
  | '[' :: rest => some (.openList, rest)
  | ']' :: rest => some (.closeList, rest)
  | '\x7b' :: rest => some (.openObject, rest)
  | '\x7d' :: rest => some (.closeObject, rest)
  | ',' :: rest => some (.comma, rest)
  | ':' :: rest => some (.colon, rest)
  | 'n' :: 'u' :: 'l' :: 'l' :: rest => some (.null, rest)
  | 't' :: 'r' :: 'u' :: 'e' :: rest => some (.bool true, rest)
  | 'f' :: 'a' :: 'l' :: 's' :: 'e' :: rest => some (.bool false, rest)
  | '\x22' :: rest => (units? rest).map fun u => (.string ((text? u.1).map String.ofList), u.2)
  | '-' :: rest => (unsigned? rest).map fun n => (.number ('-' :: n.1), n.2)
  | cs => (unsigned? cs).map fun n => (.number n.1, n.2)

def isGap (c : Char) : Bool := c == ' ' || c == '\t' || c == '\n' || c == '\r'

theorem length_of_units? {cs rest : List Char} {us : List CodeUnit}
    (h : units? cs = some (us, rest)) : rest.length < cs.length := by
  fun_induction units? cs generalizing us rest with
  | case1 => simp at h
  | case2 tail =>
    obtain ⟨-, rfl⟩ := by simpa using h
    simp
  | case3 a b c d tail ih =>
    simp only [bind, Option.bind_eq_some_iff] at h
    obtain ⟨n, -, ⟨vs, r⟩, hv, h⟩ := h
    obtain ⟨-, rfl⟩ := by simpa [pure] using h
    have := ih hv
    simp
    omega
  | case4 e tail hne ih =>
    simp only [bind, Option.bind_eq_some_iff] at h
    obtain ⟨n, -, ⟨vs, r⟩, hv, h⟩ := h
    obtain ⟨-, rfl⟩ := by simpa [pure] using h
    have := ih hv
    simp
    omega
  | case5 => simp at h
  | case6 c tail h1 h2 h3 hc ih =>
    obtain ⟨⟨vs, r⟩, hv, h⟩ := Option.map_eq_some_iff.1 h
    obtain ⟨-, rfl⟩ := by simpa using h
    have := ih hv
    simp
    omega

theorem length_of_digits? {cs ds rest : List Char} (h : digits? cs = some (ds, rest)) :
    rest.length < cs.length := by
  have whole := congrArg List.length (List.takeWhile_append_dropWhile (p := Char.isDigit) (l := cs))
  rw [List.length_append] at whole
  unfold digits? at h
  split at h
  · simp at h
  · next hne =>
    obtain ⟨-, rfl⟩ := by simpa using h
    have := List.length_pos_iff.2 hne
    omega

theorem length_of_whole? {cs ds rest : List Char} (h : whole? cs = some (ds, rest)) :
    rest.length < cs.length := by
  unfold whole? at h
  split at h
  · obtain ⟨-, rfl⟩ := by simpa using h
    simp
  · exact length_of_digits? h

theorem length_of_marked {cs ds rest : List Char} {mark : Char}
    {read : List Char → Option (List Char × List Char)}
    (hread : ∀ {ds rest : List Char}, read cs = some (ds, rest) → rest.length < cs.length)
    (h : ((read cs).map fun d => (mark :: d.1, d.2)) = some (ds, rest)) :
    rest.length ≤ (mark :: cs).length := by
  obtain ⟨⟨d, r⟩, hd, h⟩ := Option.map_eq_some_iff.1 h
  obtain ⟨-, rfl⟩ := by simpa using h
  have := hread hd
  simp
  omega

theorem length_of_fraction? {cs ds rest : List Char} (h : fraction? cs = some (ds, rest)) :
    rest.length ≤ cs.length := by
  unfold fraction? at h
  split at h
  · exact length_of_marked length_of_digits? h
  · obtain ⟨-, rfl⟩ := by simpa using h
    exact Nat.le_refl _

theorem length_of_signed? {cs ds rest : List Char} (h : signed? cs = some (ds, rest)) :
    rest.length < cs.length := by
  unfold signed? at h
  split at h
  all_goals
    first
    | exact length_of_digits? h
    | obtain ⟨⟨d, r⟩, hd, h⟩ := Option.map_eq_some_iff.1 h
      obtain ⟨-, rfl⟩ := by simpa using h
      have := length_of_digits? hd
      simp
      omega

theorem length_of_exponent? {cs ds rest : List Char} (h : exponent? cs = some (ds, rest)) :
    rest.length ≤ cs.length := by
  unfold exponent? at h
  split at h
  · exact length_of_marked length_of_signed? h
  · exact length_of_marked length_of_signed? h
  · obtain ⟨-, rfl⟩ := by simpa using h
    exact Nat.le_refl _

theorem length_of_unsigned? {cs ds rest : List Char} (h : unsigned? cs = some (ds, rest)) :
    rest.length < cs.length := by
  simp only [unsigned?, bind, Option.bind_eq_some_iff] at h
  obtain ⟨⟨w, r₁⟩, h₁, ⟨f, r₂⟩, h₂, ⟨e, r₃⟩, h₃, h⟩ := h
  obtain ⟨-, rfl⟩ := by simpa [pure] using h
  have h₁ := length_of_whole? h₁
  have h₂ := length_of_fraction? h₂
  have h₃ := length_of_exponent? h₃
  exact Nat.lt_of_le_of_lt (Nat.le_trans h₃ h₂) h₁

theorem length_of_token? {cs rest : List Char} {t : Token} (h : token? cs = some (t, rest)) :
    rest.length < cs.length := by
  unfold token? at h
  split at h
  case h_10 =>
    obtain ⟨⟨u, r⟩, hu, h⟩ := Option.map_eq_some_iff.1 h
    obtain ⟨-, rfl⟩ := by simpa using h
    have := length_of_units? hu
    simp
    omega
  case h_11 =>
    obtain ⟨⟨u, r⟩, hu, h⟩ := Option.map_eq_some_iff.1 h
    obtain ⟨-, rfl⟩ := by simpa using h
    have := length_of_unsigned? hu
    simp
    omega
  case h_12 =>
    obtain ⟨⟨u, r⟩, hu, h⟩ := Option.map_eq_some_iff.1 h
    obtain ⟨-, rfl⟩ := by simpa using h
    exact length_of_unsigned? hu
  all_goals
    obtain ⟨-, rfl⟩ := by simpa using h
    simp
    try omega

def tokens? (cs : List Char) : Option (List Token) :=
  match cs with
  | [] => some []
  | c :: rest =>
    if isGap c then tokens? rest
    else match _h : token? (c :: rest) with
      | some (t, after) => (tokens? after).map (t :: ·)
      | none => none
termination_by cs.length
decreasing_by
  · simp
  · exact length_of_token? ‹_›

end HubConsole.Json
