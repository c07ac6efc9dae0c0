import HubConsole.Proofs.SizeText
import Mathlib.Algebra.Order.Field.Rat
import Mathlib.Tactic.Linarith

/-! # How exactly sizes are shown

A size is shown as a number of two decimals and a unit, which together say a number of bytes (`Shown`).
That number is the size, rounded to a hundredth of the largest unit not above it, so it is off by half
a hundredth at most. To show is monotone within a unit, since rounding is (`roundDiv_mono`). Where one
unit ends and the next begins, the sizes below may be rounded up to what the next unit begins with, but
no further. The main statement is `shows_nearly`, for the sizes that a double holds exactly. -/

namespace HubConsole

/-! ## Rounding -/

section
variable {a b den : Nat}

theorem div_le_roundDiv (a den : Nat) : a / den ≤ roundDiv a den := by
  unfold roundDiv
  dsimp only
  split_ifs <;> omega

theorem roundDiv_le_div_add_one (a den : Nat) : roundDiv a den ≤ a / den + 1 := by
  unfold roundDiv
  dsimp only
  split_ifs <;> omega

theorem roundDiv_mono (h : a ≤ b) : roundDiv a den ≤ roundDiv b den := by
  rcases Nat.lt_or_eq_of_le (Nat.div_le_div_right (c := den) h) with hlt | heq
  · calc roundDiv a den ≤ a / den + 1 := roundDiv_le_div_add_one a den
      _ ≤ b / den := hlt
      _ ≤ roundDiv b den := div_le_roundDiv b den
  · -- between the same two numbers the remainder decides
    have hmod : a % den ≤ b % den := by
      have ha := Nat.div_add_mod a den
      have hb := Nat.div_add_mod b den
      rw [heq] at ha
      omega
    unfold roundDiv
    dsimp only
    rw [heq]
    split_ifs <;> omega

/-- What is rounded is off by half of one at most. -/
theorem roundDiv_near (h : 0 < den) (a : Nat) :
    2 * (roundDiv a den * den) ≤ 2 * a + den ∧ 2 * a ≤ 2 * (roundDiv a den * den) + den := by
  have hdiv := Nat.div_add_mod a den
  have hmod := Nat.mod_lt a h
  have hcomm : a / den * den = den * (a / den) := Nat.mul_comm _ _
  have hsucc : (a / den + 1) * den = den * (a / den) + den := by rw [Nat.succ_mul, hcomm]
  unfold roundDiv
  dsimp only
  split_ifs <;> omega

/-- A whole number stays as it is. -/
theorem roundDiv_mul (h : 0 < den) (k : Nat) : roundDiv (k * den) den = k := by
  unfold roundDiv
  dsimp only
  rw [Nat.mul_mod_left, Nat.mul_div_cancel k h, if_pos (by omega)]

theorem roundDiv_one (a : Nat) : roundDiv a 1 = a := by
  simpa using roundDiv_mul Nat.one_pos a

end

namespace Size
open Text

/-! ## What is shown -/

/-- The name of a unit where a size is shown. -/
def ByteUnit.label : ByteUnit → String
  | byte => "B"
  | kibi => "KiB"
  | mebi => "MiB"
  | gibi => "GiB"
  | tebi => "TiB"

/-- The largest unit that is not above `n` bytes. -/
structure ByteUnit.IsLargest (u : ByteUnit) (n : Nat) : Prop where
  le : u.bytes ≤ n
  max : ∀ w : ByteUnit, w.bytes ≤ n → w.bytes ≤ u.bytes

/-- What is said by the text of a size: a number of units. -/
structure Shown where
  number : ℚ
  unit : ByteUnit

namespace Shown

/-- The number of bytes that is said. -/
def bytes (d : Shown) : ℚ := d.number * d.unit.bytes

def digits? (ds : List Char) : Option Nat :=
  if !ds.isEmpty && ds.all Char.isDigit then some (Nat.ofDigitChars 10 ds 0) else none

/-- The value of decimal digits with a point among them, or without one. -/
def number? (cs : List Char) : Option ℚ :=
  match cutFirst? '.' cs with
  | none => (digits? cs).map fun n => (n : ℚ)
  | some (whole, places) => (digits? (whole ++ places)).map fun n => n / 10 ^ places.length

def unit? (label : List Char) : Option ByteUnit :=
  [.byte, .kibi, .mebi, .gibi, .tebi].find? fun u : ByteUnit => u.label.toList == label

/-- Reads a number, a space and the name of a unit. -/
def ofText? (s : String) : Option Shown := do
  let (number, label) ← cutFirst? ' ' s.toList
  return ⟨← number? number, ← unit? label⟩

/-- `n` bytes in hundredths of a unit. -/
def inUnit (n : Nat) (u : ByteUnit) : Shown := ⟨roundDiv (100 * n) u.bytes / 100, u⟩

/-- What is said of `n` bytes is off by half a hundredth of the unit at most, and by nothing if the
unit is a byte. -/
structure IsNear (d : Shown) (n : Nat) : Prop where
  near : |d.bytes - n| ≤ d.unit.bytes / 200
  exact : n < 1024 → d.bytes = n
  unit : d.unit.IsLargest n

end Shown

variable {n a b : Nat} {u w : ByteUnit}

theorem unit?_label (u : ByteUnit) : Shown.unit? u.label.toList = some u := by
  cases u <;> rfl

theorem digits?_of_isDigit {ds : List Char} (hne : ds ≠ []) (h : ∀ d ∈ ds, d.isDigit = true) :
    Shown.digits? ds = some (Nat.ofDigitChars 10 ds 0) := by
  rw [Shown.digits?, List.isEmpty_eq_false_iff.2 hne, List.all_eq_true.2 h]
  rfl

theorem digits?_toDigits (n : Nat) : Shown.digits? (Nat.toDigits 10 n) = some n := by
  rw [digits?_of_isDigit Nat.toDigits_ne_nil (List.all_eq_true.1 (Count.all_isDigit_toDigits n)),
    Nat.ofDigitChars_ten_toDigits]

theorem not_mem_toDigits {c : Char} (hc : c.isDigit = false) : c ∉ Nat.toDigits 10 n := by
  intro hmem
  rw [List.all_eq_true.1 (Count.all_isDigit_toDigits n) c hmem] at hc
  cases hc

theorem number?_toDigits (n : Nat) : Shown.number? (Nat.toDigits 10 n) = some (n : ℚ) := by
  rw [Shown.number?, cutFirst?_eq_none_iff.2 (not_mem_toDigits (by decide))]
  simp [digits?_toDigits]

theorem toList_hundredths (h : Nat) : (hundredths h).toList =
    Nat.toDigits 10 (h / 100) ++ '.' :: [Nat.digitChar (h % 100 / 10), Nat.digitChar (h % 10)] := by
  simp only [hundredths, String.toList_append, Nat.toList_repr]
  rw [Nat.toDigits_of_lt_base (n := h % 100 / 10) (by omega),
    Nat.toDigits_of_lt_base (n := h % 10) (by omega)]
  simp

theorem isDigit_places (h : Nat) :
    ∀ c ∈ [Nat.digitChar (h % 100 / 10), Nat.digitChar (h % 10)], c.isDigit = true := by
  simp only [List.forall_mem_cons, Nat.isDigit_digitChar, decide_eq_true_eq]
  exact ⟨by omega, by omega, List.forall_mem_nil _⟩

theorem digits?_hundredths (h : Nat) : Shown.digits? (Nat.toDigits 10 (h / 100) ++
    [Nat.digitChar (h % 100 / 10), Nat.digitChar (h % 10)]) = some h := by
  have hdigits : ∀ c ∈ Nat.toDigits 10 (h / 100) ++
      [Nat.digitChar (h % 100 / 10), Nat.digitChar (h % 10)], c.isDigit = true :=
    List.forall_mem_append.2 ⟨List.all_eq_true.1 (Count.all_isDigit_toDigits _), isDigit_places h⟩
  rw [digits?_of_isDigit (by simp) hdigits, Nat.ofDigitChars_append,
    Nat.ofDigitChars_ten_toDigits, Nat.ofDigitChars_cons_digitChar_of_lt_ten (by omega),
    Nat.ofDigitChars_cons_digitChar_of_lt_ten (by omega), Nat.ofDigitChars_nil]
  exact congrArg some (by omega)

theorem number?_hundredths (h : Nat) : Shown.number? (hundredths h).toList = some (h / 100 : ℚ) := by
  rw [toList_hundredths, Shown.number?, cutFirst?_append (not_mem_toDigits (by decide))]
  simp only [digits?_hundredths, List.length_cons, List.length_nil]
  norm_num

theorem space_not_mem_hundredths (h : Nat) : ' ' ∉ (hundredths h).toList := by
  rw [toList_hundredths, List.mem_append, List.mem_cons, not_or, not_or]
  refine ⟨not_mem_toDigits (by decide), by decide, fun hmem => ?_⟩
  exact absurd (isDigit_places h ' ' hmem) (by decide)

theorem ofText?_append {s : String} {number : List Char} {q : ℚ}
    (hs : s.toList = number ++ ' ' :: u.label.toList) (hspace : ' ' ∉ number)
    (hnumber : Shown.number? number = some q) : Shown.ofText? s = some ⟨q, u⟩ := by
  rw [Shown.ofText?, hs, cutFirst?_append hspace]
  simp [hnumber, unit?_label]

/-! ## Units -/

theorem ByteUnit.IsLargest.of_lt (hle : u.bytes ≤ n) (hlt : n < 1024 ^ (u.exponent + 1)) :
    u.IsLargest n := by
  refine ⟨hle, fun w hw => Nat.pow_le_pow_right (by decide) (Nat.le_of_lt_succ ?_)⟩
  exact (Nat.pow_lt_pow_iff_right (by decide)).1 (Nat.lt_of_le_of_lt hw hlt)

/-- The largest unit is the one that is shown. -/
theorem exists_isLargest (h : 1 ≤ n) : ∃ u : ByteUnit,
    u.IsLargest n ∧ unitName (unitOf n) = u.label ∧ Nat.pow 1024 (unitOf n) = u.bytes := by
  unfold unitOf
  split_ifs with hkibi hmebi hgibi htebi
  · exact ⟨.byte, .of_lt h hkibi, rfl, rfl⟩
  · exact ⟨.kibi, .of_lt (Nat.le_of_not_lt hkibi) hmebi, rfl, rfl⟩
  · exact ⟨.mebi, .of_lt (Nat.le_of_not_lt hmebi) hgibi, rfl, rfl⟩
  · exact ⟨.gibi, .of_lt (Nat.le_of_not_lt hgibi) htebi, rfl, rfl⟩
  · exact ⟨.tebi, ⟨Nat.le_of_not_lt htebi, fun w _ => by cases w <;> decide⟩, rfl, rfl⟩

theorem eq_byte_of_lt (h : u.IsLargest n) (hlt : n < 1024) : u = .byte := by
  have hle := h.le
  cases u with
  | byte => rfl
  | kibi | mebi | gibi | tebi => simp [ByteUnit.bytes, ByteUnit.exponent] at hle; omega

/-! ## Numbers -/

/-- A double holds a number of 53 bits exactly. -/
theorem toDouble_of_lt (h : n < 2 ^ 53) : toDouble n = n := by
  have hshift : n.log2 - 52 = 0 := by
    rcases Nat.eq_zero_or_pos n with rfl | hpos
    · rfl
    · have hlog := (Nat.log2_lt (Nat.ne_of_gt hpos)).2 h
      omega
  unfold toDouble
  dsimp only
  rw [hshift]
  exact (Nat.mul_one _).trans (roundDiv_one n)

theorem inUnit_byte (n : Nat) : Shown.inUnit n .byte = ⟨n, .byte⟩ := by
  have hone : roundDiv (100 * n) ByteUnit.byte.bytes = 100 * n := roundDiv_one _
  rw [Shown.inUnit, hone, Nat.cast_mul, Nat.cast_ofNat, mul_div_cancel_left₀]
  norm_num

/-- The text of a size says hundredths of the largest unit. -/
theorem exists_ofText?_text {n : Count} (hpos : 1 ≤ n.toNat) (hlt : n.toNat < 2 ^ 53) :
    ∃ u : ByteUnit, u.IsLargest n.toNat ∧
      Shown.ofText? (text n) = some (.inUnit n.toNat u) := by
  obtain ⟨u, hu, hname, hbytes⟩ := exists_isLargest hpos
  refine ⟨u, hu, ?_⟩
  unfold text
  split
  · next hsmall =>
    obtain rfl := eq_byte_of_lt hu hsmall
    rw [inUnit_byte]
    refine ofText?_append ?_ (not_mem_toDigits (by decide)) (number?_toDigits n.toNat)
    rw [String.toList_append, Nat.toList_repr]
    rfl
  · dsimp only
    rw [toDouble_of_lt hlt, hname, hbytes]
    refine ofText?_append ?_ (space_not_mem_hundredths _) (number?_hundredths _)
    simp

/-! ## Accuracy -/

theorem abs_inUnit_sub_le (n : Nat) (u : ByteUnit) :
    |(Shown.inUnit n u).bytes - n| ≤ u.bytes / 200 := by
  obtain ⟨hle, hge⟩ := roundDiv_near (bytes_pos u) (100 * n)
  have hle' : (2 * (roundDiv (100 * n) u.bytes * u.bytes) : ℚ) ≤ 2 * (100 * n) + u.bytes := by
    exact_mod_cast hle
  have hge' : (2 * (100 * n) : ℚ) ≤ 2 * (roundDiv (100 * n) u.bytes * u.bytes) + u.bytes := by
    exact_mod_cast hge
  rw [Shown.bytes, Shown.inUnit, abs_le]
  constructor <;> linarith

theorem isNear_inUnit (h : u.IsLargest n) : (Shown.inUnit n u).IsNear n := by
  refine ⟨abs_inUnit_sub_le n u, fun hlt => ?_, h⟩
  rw [eq_byte_of_lt h hlt, inUnit_byte, Shown.bytes]
  exact mul_one _

theorem bytes_dvd_bytes (h : u.bytes ≤ w.bytes) : u.bytes ∣ w.bytes :=
  Nat.pow_dvd_pow 1024 ((Nat.pow_le_pow_iff_right (by decide)).1 h)

/-- A larger size is not shown as less, also if it is shown in a larger unit. -/
theorem hundredths_mono (hu : u.IsLargest a) (hw : w.IsLargest b) (h : a ≤ b) :
    roundDiv (100 * a) u.bytes * u.bytes ≤ roundDiv (100 * b) w.bytes * w.bytes := by
  have hunits : u.bytes ≤ w.bytes := hw.max u (Nat.le_trans hu.le h)
  rcases Nat.eq_or_lt_of_le hunits with heq | hlt
  · rw [heq]
    exact Nat.mul_le_mul_right _ (roundDiv_mono (Nat.mul_le_mul_left 100 h))
  · -- what the larger unit begins with is between the two
    have ha : a ≤ w.bytes := Nat.le_of_not_le fun hle => Nat.not_le.2 hlt (hu.max w hle)
    obtain ⟨k, hk⟩ := bytes_dvd_bytes hunits
    have hbelow : roundDiv (100 * w.bytes) u.bytes = 100 * k := by
      rw [hk, Nat.mul_comm u.bytes, ← Nat.mul_assoc, roundDiv_mul (bytes_pos u)]
    have habove : 100 ≤ roundDiv (100 * b) w.bytes :=
      (roundDiv_mul (bytes_pos w) 100).symm.le.trans (roundDiv_mono (Nat.mul_le_mul_left 100 hw.le))
    calc roundDiv (100 * a) u.bytes * u.bytes
        ≤ 100 * k * u.bytes := by
          rw [← hbelow]
          exact Nat.mul_le_mul_right _ (roundDiv_mono (Nat.mul_le_mul_left 100 ha))
      _ = 100 * w.bytes := by rw [hk, Nat.mul_assoc, Nat.mul_comm k]
      _ ≤ roundDiv (100 * b) w.bytes * w.bytes := Nat.mul_le_mul_right _ habove

theorem bytes_inUnit_mono (hu : u.IsLargest a) (hw : w.IsLargest b) (h : a ≤ b) :
    (Shown.inUnit a u).bytes ≤ (Shown.inUnit b w).bytes := by
  have hhundredths : (roundDiv (100 * a) u.bytes * u.bytes : ℚ) ≤
      roundDiv (100 * b) w.bytes * w.bytes := by exact_mod_cast hundredths_mono hu hw h
  rw [Shown.bytes, Shown.bytes, Shown.inUnit, Shown.inUnit]
  linarith

/-- What the text of a size says is off by half a hundredth of the unit at most, the unit is the
largest one not above the size, and a larger size is not shown as less. -/
theorem shows_nearly {a b : Count} (hpos : 1 ≤ a.toNat) (hle : a ≤ b) (hlt : b.toNat < 2 ^ 53) :
    ∃ d e, Shown.ofText? (text a) = some d ∧ Shown.ofText? (text b) = some e ∧
      d.IsNear a.toNat ∧ e.IsNear b.toNat ∧ d.bytes ≤ e.bytes := by
  have hle : a.toNat ≤ b.toNat := UInt64.le_iff_toNat_le.1 hle
  obtain ⟨u, hu, ha⟩ := exists_ofText?_text hpos (Nat.lt_of_le_of_lt hle hlt)
  obtain ⟨w, hw, hb⟩ := exists_ofText?_text (Nat.le_trans hpos hle) hlt
  exact ⟨_, _, ha, hb, isNear_inUnit hu, isNear_inUnit hw, bytes_inUnit_mono hu hw hle⟩

/-- Just below a mebibyte a size is rounded up across the boundary between two units. -/
theorem shows_nearly_boundary :
    (text 1048575 = "1024.00 KiB" ∧ text 1048576 = "1.00 MiB") ∧
      1 ≤ (1048575 : Count).toNat ∧ (1048575 : Count) ≤ 1048576 ∧ (1048576 : Count).toNat < 2 ^ 53 ∧
      ∃ d e, Shown.ofText? (text 1048575) = some d ∧ Shown.ofText? (text 1048576) = some e ∧
        d.IsNear (1048575 : Count).toNat ∧ e.IsNear (1048576 : Count).toNat ∧ d.bytes ≤ e.bytes :=
  ⟨by decide, by decide, by decide, by decide, shows_nearly (by decide) (by decide) (by decide)⟩

end Size
end HubConsole
