import HubConsole.Proofs.Trim
import HubConsole.Size
import Mathlib.Algebra.GroupWithZero.Nat

/-! # The reading of sizes and speeds

The text of a size is a number, blanks and the name of a unit (`Denotes`), and stands for an exact
number of bytes. Reading it checks the number and the product, but the number is out of range only if
the product is, since no unit is smaller than a byte (`ofText?_of_denotes`). A speed is read as what
is left of it without `/s`. The main statement is `reads_whole_bytes`. -/

namespace HubConsole.Size
open Text

/-! ## Units -/

inductive ByteUnit where
  | byte
  | kibi
  | mebi
  | gibi
  | tebi
deriving DecidableEq, Repr

namespace ByteUnit

def exponent : ByteUnit → Nat
  | byte => 0
  | kibi => 1
  | mebi => 2
  | gibi => 3
  | tebi => 4

def bytes (u : ByteUnit) : Nat := 1024 ^ u.exponent

/-- The names of a unit, in small letters. A number alone counts bytes. -/
def names : ByteUnit → List String
  | byte => ["", "b"]
  | kibi => ["k", "kb", "kib"]
  | mebi => ["m", "mb", "mib"]
  | gibi => ["g", "gb", "gib"]
  | tebi => ["t", "tb", "tib"]

/-- A text names the unit, in letters of either case. -/
def IsNamed (u : ByteUnit) (name : List Char) : Prop := String.ofList (name.map lowerAscii) ∈ u.names

end ByteUnit

/-- The exact number of bytes that a text stands for, however large. -/
inductive Denotes : List Char → Nat → Prop
  | size {digits blanks name : List Char} {u : ByteUnit} (ne_nil : digits ≠ [])
      (isDigit : ∀ c ∈ digits, c.isDigit = true) (isBlank : ∀ c ∈ blanks, isBlank c = true)
      (named : u.IsNamed name) :
      Denotes (digits ++ (blanks ++ name)) (Nat.ofDigitChars 10 digits 0 * u.bytes)

/-- The beginning and the characters of the text of a size or a speed. -/
structure Shaped (cs : List Char) : Prop where
  head : ∃ d ∈ cs.head?, d.isDigit = true
  chars : ∀ c ∈ cs, c.isAlphanum = true ∨ isBlank c = true ∨ c = '/'

variable {cs name rest : List Char} {c : Char} {n : Nat} {u : ByteUnit} {v : Count}

theorem bytes_pos (u : ByteUnit) : 0 < u.bytes := Nat.pow_pos (by decide)

theorem isAlpha_of_mem_names : ∀ w ∈ u.names, ∀ c ∈ w.toList, c.isAlpha = true := by
  have hall : (u.names.all fun w => w.toList.all Char.isAlpha) = true := by cases u <;> rfl
  simpa only [List.all_eq_true] using hall

namespace ByteUnit.IsNamed

theorem isAlpha (h : u.IsNamed name) (hc : c ∈ name) : c.isAlpha = true := by
  refine isAlpha_of_lowerAscii (isAlpha_of_mem_names _ h _ ?_)
  rw [String.toList_ofList]
  exact List.mem_map_of_mem hc

theorem unitExponent? (h : u.IsNamed name) : Size.unitExponent? name = some u.exponent := by
  unfold IsNamed at h
  unfold Size.unitExponent?
  generalize String.ofList (name.map lowerAscii) = lowered at h ⊢
  cases u
  all_goals
    simp only [names, List.mem_cons, List.not_mem_nil, or_false] at h
    rcases h with rfl | rfl | rfl
  all_goals rfl

end ByteUnit.IsNamed

/-- Only the names of units stand for one. -/
theorem exists_isNamed {e : Nat} (h : unitExponent? name = some e) :
    ∃ u : ByteUnit, u.IsNamed name := by
  unfold unitExponent? at h
  split at h
  case h_1 hw | h_2 hw => exact ⟨.byte, by simp [ByteUnit.IsNamed, ByteUnit.names, hw]⟩
  case h_3 hw | h_4 hw | h_5 hw => exact ⟨.kibi, by simp [ByteUnit.IsNamed, ByteUnit.names, hw]⟩
  case h_6 hw | h_7 hw | h_8 hw => exact ⟨.mebi, by simp [ByteUnit.IsNamed, ByteUnit.names, hw]⟩
  case h_9 hw | h_10 hw | h_11 hw => exact ⟨.gibi, by simp [ByteUnit.IsNamed, ByteUnit.names, hw]⟩
  case h_12 hw | h_13 hw | h_14 hw => exact ⟨.tebi, by simp [ByteUnit.IsNamed, ByteUnit.names, hw]⟩
  case h_15 => cases h

/-! ## Sizes -/

/-- The digits of a size end where its blanks and its unit begin. -/
theorem isDigit_head?_unit {blanks : List Char} (hblank : ∀ c ∈ blanks, isBlank c = true)
    (h : u.IsNamed name) : ∀ c ∈ (blanks ++ name).head?, c.isDigit = false := by
  intro c hc
  rcases List.mem_append.1 (List.mem_of_mem_head? hc) with hc | hc
  · refine Bool.eq_false_iff.2 fun hdigit => ?_
    have hnot := isBlank_of_isDigit hdigit
    rw [hblank c hc] at hnot
    cases hnot
  · exact isDigit_of_isAlpha (h.isAlpha hc)

/-- A text that stands for a number of bytes is read as it, if it is in range. -/
theorem ofText?_of_denotes (h : Denotes (trim cs) n) : ofText? cs = Count.ofNat? n := by
  unfold ofText?
  dsimp only
  generalize trim cs = text at h
  cases h with
  | @size digits blanks name u hne hdigit hblank hname =>
    have hrest := isDigit_head?_unit hblank hname
    have hunit : trimStart (blanks ++ name) = name :=
      dropWhile_run hblank fun c hc => isBlank_of_isAlpha (hname.isAlpha (List.mem_of_mem_head? hc))
    have hle : Nat.ofDigitChars 10 digits 0 ≤ Nat.ofDigitChars 10 digits 0 * u.bytes :=
      Nat.le_mul_of_pos_right _ (bytes_pos u)
    rw [takeWhile_run hdigit hrest, dropWhile_run hdigit hrest, hunit, hname.unitExponent?,
      Count.ofDigits?_eq hne hdigit]
    exact Count.ofNat?_bind (f := (· * u.bytes)) hle

/-- Nothing else is read. -/
theorem exists_denotes_of_ofText? (h : ofText? cs = some v) : ∃ n, Denotes (trim cs) n := by
  unfold ofText? at h
  simp only [Option.bind_eq_bind, Option.bind_eq_some_iff] at h
  obtain ⟨value, hvalue, e, he, -⟩ := h
  obtain ⟨u, hu⟩ := exists_isNamed he
  have hne : (trim cs).takeWhile Char.isDigit ≠ [] := by
    intro hnil
    rw [hnil] at hvalue
    cases hvalue
  have htext : (trim cs).takeWhile Char.isDigit ++
      (((trim cs).dropWhile Char.isDigit).takeWhile isBlank ++
        trimStart ((trim cs).dropWhile Char.isDigit)) = trim cs := by
    rw [trimStart, List.takeWhile_append_dropWhile, List.takeWhile_append_dropWhile]
  rw [← htext]
  exact ⟨_, .size hne (fun _ => List.mem_takeWhile_imp) (fun _ => List.mem_takeWhile_imp) hu⟩

theorem map_parse?_eq_some_iff {s : String} :
    (parse? s).map UInt64.toNat = some n ↔ Denotes (trim s.toList) n ∧ n < 2 ^ 64 := by
  constructor
  · intro h
    obtain ⟨v, hv, rfl⟩ := Option.map_eq_some_iff.1 h
    obtain ⟨n, hn⟩ := exists_denotes_of_ofText? hv
    obtain rfl := Count.ofNat?_eq_some_iff.1 ((ofText?_of_denotes hn).symm.trans hv)
    exact ⟨hn, v.toNat_lt⟩
  · rintro ⟨h, hlt⟩
    rw [parse?, ofText?_of_denotes h]
    cases hn : Count.ofNat? n with
    | none => exact absurd hlt (Nat.not_lt.2 (Count.ofNat?_eq_none_iff.1 hn))
    | some v => exact congrArg some (Count.ofNat?_eq_some_iff.1 hn)

theorem parse?_eq_none_iff {s : String} :
    parse? s = none ↔ ∀ n, Denotes (trim s.toList) n → 2 ^ 64 ≤ n := by
  constructor
  · intro h n hn
    exact Count.ofNat?_eq_none_iff.1 ((ofText?_of_denotes hn).symm.trans h)
  · intro h
    refine Option.eq_none_iff_forall_ne_some.2 fun v hv => ?_
    have hv' := map_parse?_eq_some_iff.1 (congrArg (Option.map UInt64.toNat) hv)
    exact absurd (h _ hv'.1) (Nat.not_le.2 hv'.2)

theorem Denotes.shaped (h : Denotes cs n) : Shaped cs := by
  obtain ⟨hne, hdigit, hblank, hname⟩ := h
  obtain ⟨d, digits, rfl⟩ := List.exists_cons_of_ne_nil hne
  refine ⟨⟨d, rfl, hdigit d List.mem_cons_self⟩, fun c hc => ?_⟩
  simp only [List.mem_append] at hc
  rcases hc with hc | hc | hc
  · exact .inl (isAlphanum_of_isDigit (hdigit c hc))
  · exact .inr (.inl (hblank c hc))
  · exact .inl (isAlphanum_of_isAlpha (hname.isAlpha hc))

theorem shaped_of_parse? {s : String} (h : parse? s = some v) : Shaped (trim s.toList) := by
  obtain ⟨n, hn⟩ := exists_denotes_of_ofText? h
  exact hn.shaped

theorem parse?_text (u : Count) : parse? u.text = some u := by
  have hdenotes : Denotes (Nat.toDigits 10 u.toNat ++ ([] ++ []))
      (Nat.ofDigitChars 10 (Nat.toDigits 10 u.toNat) 0 * ByteUnit.byte.bytes) :=
    .size Nat.toDigits_ne_nil (List.all_eq_true.1 (Count.all_isDigit_toDigits _))
      (List.forall_mem_nil _) List.mem_cons_self
  have hone : ByteUnit.byte.bytes = 1 := rfl
  rw [List.append_nil, List.append_nil, Nat.ofDigitChars_ten_toDigits, hone, Nat.mul_one] at hdenotes
  rw [parse?, Count.toList_text, ofText?_of_denotes ((Count.trim_toDigits _).symm ▸ hdenotes),
    Count.ofNat?_toNat]

/-! ## Speeds -/

/-- The second text is the first one and `/s`, in a letter of either case. -/
def PerSecond (rest cs : List Char) : Prop := cs = rest ++ ['/', 's'] ∨ cs = rest ++ ['/', 'S']

theorem dropPerSecond_of_perSecond (h : PerSecond rest cs) : dropPerSecond cs = rest := by
  rcases h with rfl | rfl <;> simp [dropPerSecond]

/-- Nothing else is taken off than `/s`. -/
theorem perSecond_or (cs : List Char) : PerSecond (dropPerSecond cs) cs ∨ dropPerSecond cs = cs := by
  unfold dropPerSecond
  split
  · next rest h => exact .inl (.inl (by simpa using congrArg List.reverse h))
  · next rest h => exact .inl (.inr (by simpa using congrArg List.reverse h))
  · exact .inr rfl

/-- What is taken off is a slash and a letter. -/
theorem exists_dropPerSecond_append (cs : List Char) : ∃ tail,
    (∀ c ∈ tail, c.isAlphanum = true ∨ c = '/') ∧ dropPerSecond cs ++ tail = cs := by
  have htail {d : Char} (hd : d.isAlphanum = true) :
      ∀ c ∈ ['/', d], c.isAlphanum = true ∨ c = '/' :=
    List.forall_mem_cons.2 ⟨.inr rfl, List.forall_mem_singleton.2 (.inl hd)⟩
  rcases perSecond_or cs with (h | h) | h
  · exact ⟨['/', 's'], htail rfl, h.symm⟩
  · exact ⟨['/', 'S'], htail rfl, h.symm⟩
  · exact ⟨[], List.forall_mem_nil _, by rw [List.append_nil, h]⟩

theorem parseSpeed?_text (u : Count) : parseSpeed? u.text = some u := by
  have hdigits := List.all_eq_true.1 (Count.all_isDigit_toDigits u.toNat)
  have hdrop : dropPerSecond (Nat.toDigits 10 u.toNat) = Nat.toDigits 10 u.toNat := by
    refine (perSecond_or _).resolve_left fun h => ?_
    have hslash : '/' ∈ Nat.toDigits 10 u.toNat := by
      rcases h with h | h <;> exact h ▸ by simp
    exact absurd (hdigits '/' hslash) (by decide)
  rw [parseSpeed?, Count.toList_text, Count.trim_toDigits, hdrop, ← Count.toList_text]
  exact parse?_text u

theorem shaped_of_parseSpeed? {s : String} (h : parseSpeed? s = some v) :
    Shaped (trim s.toList) := by
  obtain ⟨tail, htail, hcs⟩ := exists_dropPerSecond_append (trim s.toList)
  obtain ⟨n, hn⟩ := exists_denotes_of_ofText? h
  obtain ⟨⟨d, hd, hdigit⟩, hchars⟩ := hn.shaped
  -- what is left of the text begins as the text does, with no blank
  have hstart : trimStart (dropPerSecond (trim s.toList)) = dropPerSecond (trim s.toList) := by
    refine trimStart_eq_self fun c hc => head?_trim s.toList c ?_
    rw [← hcs, List.head?_append, Option.mem_def.1 hc]
    rfl
  obtain ⟨blanks, hblank, hsize⟩ := exists_trimEnd_append (dropPerSecond (trim s.toList))
  rw [trim, hstart] at hd hchars
  rw [← hcs, ← hsize]
  refine ⟨⟨d, ?_, hdigit⟩, fun c hc => ?_⟩
  · rw [List.append_assoc, List.head?_append, Option.mem_def.1 hd]
    rfl
  · simp only [List.mem_append] at hc
    rcases hc with (hc | hc) | hc
    · exact hchars c hc
    · exact .inr (.inl (hblank c hc))
    · exact (htail c hc).imp_right .inr

/-- What does not have the shape of a size or a speed is read as neither. -/
theorem refused_of_not_shaped {s : String} (h : ¬ Shaped (trim s.toList)) :
    parse? s = none ∧ parseSpeed? s = none :=
  ⟨Option.eq_none_iff_forall_ne_some.2 fun _ hv => h (shaped_of_parse? hv),
    Option.eq_none_iff_forall_ne_some.2 fun _ hv => h (shaped_of_parseSpeed? hv)⟩

/-- A text is read as a size iff, but for blanks around it, it is a number, blanks and the name of a
unit, or nothing, and stands for less than 2 ^ 64 bytes, and it is read as just that many; as a speed
is read what is left without `/s`. So any number of 64 bits is read as itself, and nothing is read
that does not begin with a digit, such as a sign or a unit alone, or that holds a character such as a
point. -/
theorem reads_whole_bytes (s : String) :
    (∀ n, (parse? s).map UInt64.toNat = some n ↔ Denotes (trim s.toList) n ∧ n < 2 ^ 64) ∧
    (parse? s = none ↔ ∀ n, Denotes (trim s.toList) n → 2 ^ 64 ≤ n) ∧
    (∀ rest, PerSecond rest (trim s.toList) → parseSpeed? s = parse? (String.ofList rest)) ∧
    ((∀ rest, ¬ PerSecond rest (trim s.toList)) → parseSpeed? s = parse? (trimmed s)) ∧
    (∀ u : Count, parse? u.text = some u ∧ parseSpeed? u.text = some u) ∧
    ((∀ c ∈ (trim s.toList).head?, c.isDigit = false) → parse? s = none ∧ parseSpeed? s = none) ∧
    ((∃ c ∈ trim s.toList, c.isAlphanum = false ∧ isBlank c = false ∧ c ≠ '/') →
      parse? s = none ∧ parseSpeed? s = none) := by
  have hspeed : ∀ {rest}, dropPerSecond (trim s.toList) = rest →
      parseSpeed? s = parse? (String.ofList rest) := by
    rintro _ rfl
    rw [parse?, String.toList_ofList]
    rfl
  refine ⟨fun _ => map_parse?_eq_some_iff, parse?_eq_none_iff,
    fun rest h => hspeed (dropPerSecond_of_perSecond h),
    fun h => hspeed ((perSecond_or _).resolve_left (h _)),
    fun u => ⟨parse?_text u, parseSpeed?_text u⟩, fun h => refused_of_not_shaped ?_, ?_⟩
  · rintro ⟨⟨d, hd, hdigit⟩, -⟩
    rw [h d hd] at hdigit
    cases hdigit
  · rintro ⟨c, hc, halnum, hblank, hslash⟩
    refine refused_of_not_shaped fun h => ?_
    simpa [halnum, hblank, hslash] using h.chars c hc

example : parse? " 10 KiB" = some 10240 ∧ parse? "16777216T" = none ∧ parse? "1.5M" = none := by
  decide

end HubConsole.Size
