import HubConsole.Count
import HubConsole.Text.Ascii
import HubConsole.Text.Blank
import Mathlib.Data.List.DropRight

/-! # Trimmed texts and decimal digits

`trim_eq_self_iff`: a text is as trimmed as can be iff neither its first nor its last character is
blank. Decimal digits are never blank, and read back as the number that they write. -/

namespace HubConsole
namespace Text
variable {c : Char} {cs : List Char}

/-- A run of characters of a kind ends where a character of another kind follows. -/
theorem takeWhile_run {p : Char → Bool} {run rest : List Char} (hrun : ∀ c ∈ run, p c = true)
    (hrest : ∀ c ∈ rest.head?, p c = false) : (run ++ rest).takeWhile p = run := by
  rw [List.takeWhile_append_of_pos hrun]
  cases rest with
  | nil => simp
  | cons c rest => simp [hrest c rfl]

theorem dropWhile_run {p : Char → Bool} {run rest : List Char} (hrun : ∀ c ∈ run, p c = true)
    (hrest : ∀ c ∈ rest.head?, p c = false) : (run ++ rest).dropWhile p = rest := by
  rw [List.dropWhile_append_of_pos hrun]
  cases rest with
  | nil => rfl
  | cons c rest => simp [hrest c rfl]

/-- A word ends where a blank follows it. -/
theorem takeWhile_word {word rest : List Char} (hword : ∀ c ∈ word, isBlank c = false)
    (hrest : ∀ c ∈ rest.head?, isBlank c = true) :
    (word ++ rest).takeWhile (fun c => !isBlank c) = word :=
  takeWhile_run (fun c hc => by rw [hword c hc]; rfl) fun c hc => by rw [hrest c hc]; rfl

theorem dropWhile_word {word rest : List Char} (hword : ∀ c ∈ word, isBlank c = false)
    (hrest : ∀ c ∈ rest.head?, isBlank c = true) :
    (word ++ rest).dropWhile (fun c => !isBlank c) = rest :=
  dropWhile_run (fun c hc => by rw [hword c hc]; rfl) fun c hc => by rw [hrest c hc]; rfl

/-- What holds of each ASCII character, and of all others, holds of every character. -/
theorem char_cases {P : Char → Prop} (ascii : ∀ n < 128, P (Char.ofNat n))
    (other : ∀ c : Char, 128 ≤ c.toNat → P c) (c : Char) : P c := by
  rcases Nat.lt_or_ge c.toNat 128 with hlt | hge
  · have hc := ascii c.toNat hlt
    rwa [Char.ofNat_toNat] at hc
  · exact other c hge

theorem lowerAscii_of_ge (h : 128 ≤ c.toNat) : lowerAscii c = c := by
  refine dif_neg fun hupper => ?_
  have hle : c.toNat ≤ 90 := hupper.2
  omega

theorem isBlank_of_lt (hlo : 0x21 ≤ c.toNat) (hhi : c.toNat < 0x7F) : isBlank c = false := by
  simp only [isBlank, Bool.or_eq_false_iff, Bool.and_eq_false_iff, decide_eq_false_iff_not,
    beq_eq_false_iff_ne]
  omega

/-- The code points of digits. -/
theorem isDigit_iff : c.isDigit = true ↔ 48 ≤ c.toNat ∧ c.toNat ≤ 57 := by
  have hclass : c.isDigit = (decide (c.val ≥ '0'.val) && decide (c.val ≤ '9'.val)) := rfl
  rw [hclass, Bool.and_eq_true, decide_eq_true_eq, decide_eq_true_eq]
  exact Iff.rfl

/-- The code points of letters. -/
theorem isAlpha_iff : c.isAlpha = true ↔
    (65 ≤ c.toNat ∧ c.toNat ≤ 90) ∨ (97 ≤ c.toNat ∧ c.toNat ≤ 122) := by
  have hclasses : c.isAlpha = (decide (c.val ≥ 'A'.val ∧ c.val ≤ 'Z'.val) ||
      (decide (c.val ≥ 'a'.val) && decide (c.val ≤ 'z'.val))) := rfl
  rw [hclasses]
  simp only [Bool.or_eq_true, Bool.and_eq_true, decide_eq_true_eq]
  exact Iff.rfl

/-- The code points of letters and digits. -/
theorem isAlphanum_iff : c.isAlphanum = true ↔ (65 ≤ c.toNat ∧ c.toNat ≤ 90) ∨
    (97 ≤ c.toNat ∧ c.toNat ≤ 122) ∨ (48 ≤ c.toNat ∧ c.toNat ≤ 57) := by
  rw [Char.isAlphanum, Bool.or_eq_true, isAlpha_iff, isDigit_iff, or_assoc]

theorem isDigit_of_isAlpha (h : c.isAlpha = true) : c.isDigit = false := by
  rw [Bool.eq_false_iff, Ne, isDigit_iff]
  have hletter := isAlpha_iff.1 h
  omega

theorem isBlank_of_isAlphanum (h : c.isAlphanum = true) : isBlank c = false := by
  rcases isAlphanum_iff.1 h with h | h | h
  all_goals exact isBlank_of_lt (by omega) (by omega)

theorem isAlphanum_of_isDigit (h : c.isDigit = true) : c.isAlphanum = true := by
  rw [Char.isAlphanum, h, Bool.or_true]

theorem isAlphanum_of_isAlpha (h : c.isAlpha = true) : c.isAlphanum = true := by
  rw [Char.isAlphanum, h, Bool.true_or]

theorem isBlank_of_isDigit (h : c.isDigit = true) : isBlank c = false :=
  isBlank_of_isAlphanum (isAlphanum_of_isDigit h)

theorem isBlank_of_isAlpha (h : c.isAlpha = true) : isBlank c = false :=
  isBlank_of_isAlphanum (isAlphanum_of_isAlpha h)

/-- Letter case does not matter to what is blank. -/
@[simp] theorem isBlank_lowerAscii (c : Char) : isBlank (lowerAscii c) = isBlank c := by
  unfold lowerAscii Char.toLower
  split
  · next h =>
    have hc : 65 ≤ c.toNat ∧ c.toNat ≤ 90 := ⟨h.1, h.2⟩
    have hlower : (c.val + ('a'.val - 'A'.val)).toNat = c.toNat + 32 := by
      rw [UInt32.toNat_add]
      change (c.toNat + 32) % 2 ^ 32 = c.toNat + 32
      omega
    rw [isBlank_of_lt (c := c) (by omega) (by omega)]
    refine isBlank_of_lt ?_ ?_
    · exact Nat.le_trans (by omega) hlower.ge
    · exact Nat.lt_of_le_of_lt hlower.le (by omega)
  · rfl

/-- A letter has no other characters than letters as its case forms. -/
theorem isAlpha_of_lowerAscii (h : (lowerAscii c).isAlpha = true) : c.isAlpha = true := by
  unfold lowerAscii Char.toLower at h
  split at h
  · next hupper => exact isAlpha_iff.2 (.inl ⟨hupper.1, hupper.2⟩)
  · exact h

theorem trimEnd_eq_rdropWhile (cs : List Char) : trimEnd cs = cs.rdropWhile isBlank := rfl

/-- What is cut off at the end are blanks. -/
theorem exists_trimEnd_append (cs : List Char) :
    ∃ blanks, (∀ c ∈ blanks, isBlank c = true) ∧ trimEnd cs ++ blanks = cs :=
  ⟨cs.rtakeWhile isBlank, fun _ => List.mem_rtakeWhile_imp, List.rdropWhile_append_rtakeWhile⟩

theorem head?_trimStart (cs : List Char) : ∀ c ∈ (trimStart cs).head?, isBlank c = false := by
  intro c hc
  have h := List.head?_dropWhile_not isBlank cs
  rw [Option.mem_def] at hc
  rw [trimStart] at hc
  simpa [hc] using h

theorem getLast?_trimEnd (cs : List Char) : ∀ c ∈ (trimEnd cs).getLast?, isBlank c = false := by
  intro c hc
  rw [trimEnd, List.getLast?_reverse] at hc
  exact head?_trimStart cs.reverse c hc

theorem trimStart_eq_self (h : ∀ c ∈ cs.head?, isBlank c = false) : trimStart cs = cs := by
  cases cs with
  | nil => rfl
  | cons a cs => exact List.dropWhile_cons_of_neg (by simp [h a rfl])

theorem trimEnd_eq_self (h : ∀ c ∈ cs.getLast?, isBlank c = false) : trimEnd cs = cs := by
  rw [trimEnd]
  have hstart : trimStart cs.reverse = cs.reverse := trimStart_eq_self (by simpa using h)
  rw [trimStart] at hstart
  rw [hstart, List.reverse_reverse]

/-- What is cut off at the end leaves the first character as it is. -/
theorem head?_trimEnd (h : ∀ c ∈ cs.head?, isBlank c = false) :
    ∀ c ∈ (trimEnd cs).head?, isBlank c = false := by
  intro c hc
  refine h c ?_
  rw [trimEnd_eq_rdropWhile] at hc
  obtain ⟨rest, hrest⟩ := List.rdropWhile_prefix isBlank (l := cs)
  rw [← hrest, List.head?_append, Option.mem_def.1 hc]
  rfl

theorem head?_trim (cs : List Char) : ∀ c ∈ (trim cs).head?, isBlank c = false :=
  head?_trimEnd (head?_trimStart cs)

theorem getLast?_trim (cs : List Char) : ∀ c ∈ (trim cs).getLast?, isBlank c = false :=
  getLast?_trimEnd (trimStart cs)

theorem trim_eq_self_iff : trim cs = cs ↔
    (∀ c ∈ cs.head?, isBlank c = false) ∧ ∀ c ∈ cs.getLast?, isBlank c = false := by
  constructor
  · intro h
    rw [← h]
    exact ⟨head?_trim cs, getLast?_trim cs⟩
  · rintro ⟨hhead, hlast⟩
    rw [trim, trimStart_eq_self hhead, trimEnd_eq_self hlast]

@[simp] theorem trim_trim (cs : List Char) : trim (trim cs) = trim cs :=
  trim_eq_self_iff.2 ⟨head?_trim cs, getLast?_trim cs⟩

/-- What is cut off is blank. -/
theorem all_isBlank_trim (cs : List Char) : (trim cs).all isBlank = cs.all isBlank := by
  have hstart : ∀ cs : List Char, (trimStart cs).all isBlank = cs.all isBlank := by
    intro cs
    conv_rhs => rw [← List.takeWhile_append_dropWhile (p := isBlank) (l := cs)]
    rw [List.all_append, List.all_takeWhile, Bool.true_and, trimStart]
  have hend : (trim cs).all isBlank = (trimStart (trimStart cs).reverse).all isBlank := by
    rw [trim, trimEnd, List.all_reverse]
    rfl
  rw [hend, hstart, List.all_reverse, hstart]

/-- Texts that differ in letter case only are trimmed alike. -/
theorem trim_eq_self_of_lower {as bs : List Char} (h : as.map lowerAscii = bs.map lowerAscii)
    (hb : trim bs = bs) : trim as = as := by
  have key : ∀ {a b : Option Char}, a.map lowerAscii = b.map lowerAscii →
      (∀ c ∈ b, isBlank c = false) → ∀ c ∈ a, isBlank c = false := by
    intro a b hab hb c hc
    rw [Option.mem_def.1 hc] at hab
    obtain ⟨d, hd, hcd⟩ := Option.map_eq_some_iff.1 hab.symm
    rw [← isBlank_lowerAscii c, ← hcd, isBlank_lowerAscii]
    exact hb d hd
  obtain ⟨hhead, hlast⟩ := trim_eq_self_iff.1 hb
  refine trim_eq_self_iff.2 ⟨key ?_ hhead, key ?_ hlast⟩
  · rw [← List.head?_map, ← List.head?_map, h]
  · rw [← List.getLast?_map, ← List.getLast?_map, h]

theorem trim_eq_self_of_forall (h : ∀ c ∈ cs, isBlank c = false) : trim cs = cs :=
  trim_eq_self_iff.2
    ⟨fun c hc => h c (List.mem_of_mem_head? hc), fun c hc => h c (List.mem_of_mem_getLast? hc)⟩

/-- The text is not empty and has no blanks at its ends. -/
def IsTrimmed (s : String) : Prop := trim s.toList = s.toList ∧ s ≠ ""

theorem ne_empty_of_mem {s : String} {c : Char} (h : c ∈ s.toList) : s ≠ "" := by
  rintro rfl
  simp at h

end Text

namespace Count
open Text

theorem ofDigits?_eq {ds : List Char} (hne : ds ≠ []) (h : ∀ c ∈ ds, c.isDigit = true) :
    ofDigits? ds = ofNat? (Nat.ofDigitChars 10 ds 0) := by
  unfold ofDigits?
  rw [if_pos (by simpa [hne] using h)]
  rfl

theorem digitsValue_toDigits (n : Nat) : digitsValue (Nat.toDigits 10 n) = n :=
  Nat.ofDigitChars_ten_toDigits

theorem all_isDigit_toDigits (n : Nat) : (Nat.toDigits 10 n).all Char.isDigit = true :=
  List.all_eq_true.2 fun _ => Nat.isDigit_of_mem_toDigits (by decide) (by decide)

theorem trim_toDigits (n : Nat) : trim (Nat.toDigits 10 n) = Nat.toDigits 10 n :=
  trim_eq_self_of_forall fun c hc =>
    isBlank_of_isDigit (List.all_eq_true.1 (all_isDigit_toDigits n) c hc)

theorem ofDigits?_toDigits (n : Nat) : ofDigits? (Nat.toDigits 10 n) = ofNat? n := by
  rw [ofDigits?, all_isDigit_toDigits, digitsValue_toDigits]
  simp [Nat.toDigits_ne_nil]

@[simp] theorem toList_text (u : Count) : u.text.toList = Nat.toDigits 10 u.toNat :=
  Nat.toList_repr

theorem isTrimmed_text (u : Count) : IsTrimmed u.text := by
  refine ⟨by rw [toList_text, trim_toDigits], fun h => ?_⟩
  have htext := toList_text u
  rw [h] at htext
  exact Nat.toDigits_ne_nil htext.symm

end Count
end HubConsole
