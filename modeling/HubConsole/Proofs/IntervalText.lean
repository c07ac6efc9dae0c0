import HubConsole.Interval
import HubConsole.Proofs.Trim
import Mathlib.Algebra.BigOperators.Group.List.Basic
import Mathlib.Algebra.GroupWithZero.Nat

/-! # The reading of intervals

The text of an interval is a number of seconds or a list of segments, each a number of units
(`Denotes`). Reading it works with 64 bits at every step, but what it comes to is the exact number
of seconds, checked once at the end (`segmentsFrom_textOf`): a number, a product or a sum on the way
can only be out of range if the total is (`overflows_iff`), since no segment takes anything away
again. The main statement is `reads_exactly`. -/

namespace HubConsole.Interval
open Text

/-! ## Segments -/

inductive TimeUnit where
  | second
  | minute
  | hour
  | day
  | week
deriving DecidableEq, Repr

namespace TimeUnit

def letter : TimeUnit → Char
  | second => 's'
  | minute => 'm'
  | hour => 'h'
  | day => 'd'
  | week => 'w'

def capital : TimeUnit → Char
  | second => 'S'
  | minute => 'M'
  | hour => 'H'
  | day => 'D'
  | week => 'W'

def seconds : TimeUnit → Nat
  | second => 1
  | minute => 60
  | hour => 60 * 60
  | day => 24 * 60 * 60
  | week => 7 * 24 * 60 * 60

end TimeUnit

/-- A number of units. -/
structure Segment where
  digits : List Char
  unit : TimeUnit
  isCapital : Bool
  ne_nil : digits ≠ []
  isDigit : ∀ c ∈ digits, c.isDigit = true

namespace Segment

def letter (g : Segment) : Char := if g.isCapital then g.unit.capital else g.unit.letter

def text (g : Segment) : List Char := g.digits ++ [g.letter]

def seconds (g : Segment) : Nat := Nat.ofDigitChars 10 g.digits 0 * g.unit.seconds

end Segment

def textOf (gs : List Segment) : List Char := gs.flatMap Segment.text

def secondsOf (gs : List Segment) : Nat := (gs.map Segment.seconds).sum

/-- The exact number of seconds that a text stands for, however large. -/
inductive Denotes : List Char → Nat → Prop
  | number {ds} (ne_nil : ds ≠ []) (isDigit : ∀ c ∈ ds, c.isDigit = true) :
      Denotes ds (Nat.ofDigitChars 10 ds 0)
  | segments {gs} (ne_nil : gs ≠ []) : Denotes (textOf gs) (secondsOf gs)

/-- A number, a product or a sum is out of range when segments are added up one by one. -/
inductive Overflows : Count → List Segment → Prop
  | number {total g gs} (value : Count.ofDigits? g.digits = none) : Overflows total (g :: gs)
  | product {total g gs value unit} (number : Count.ofDigits? g.digits = some value)
      (factor : unitSeconds? g.letter = some unit) (product : Count.mul? value unit = none) :
      Overflows total (g :: gs)
  | sum {total g gs value unit seconds} (number : Count.ofDigits? g.digits = some value)
      (factor : unitSeconds? g.letter = some unit) (product : Count.mul? value unit = some seconds)
      (sum : Count.add? total seconds = none) : Overflows total (g :: gs)
  | later {total g gs value unit seconds next} (number : Count.ofDigits? g.digits = some value)
      (factor : unitSeconds? g.letter = some unit) (product : Count.mul? value unit = some seconds)
      (sum : Count.add? total seconds = some next) (rest : Overflows next gs) :
      Overflows total (g :: gs)

variable {c : Char} {cs ds : List Char} {g : Segment} {gs gs' : List Segment} {n : Nat}
  {t total unit : Count}

@[simp] theorem textOf_nil : textOf [] = [] := rfl

@[simp] theorem textOf_cons : textOf (g :: gs) = g.text ++ textOf gs := rfl

@[simp] theorem secondsOf_nil : secondsOf [] = 0 := rfl

@[simp] theorem secondsOf_cons : secondsOf (g :: gs) = g.seconds + secondsOf gs := rfl

/-! ## Units -/

theorem eq_of_lowerAscii_eq_letter {u : TimeUnit} (h : lowerAscii c = u.letter) :
    c = u.letter ∨ c = u.capital := by
  refine char_cases (P := fun c => lowerAscii c = u.letter → c = u.letter ∨ c = u.capital) ?_ ?_ c h
  · cases u <;> decide
  · intro c hc h
    rw [lowerAscii_of_ge hc] at h
    exact .inl h

theorem unitSeconds?_letter (g : Segment) :
    ∃ unit, unitSeconds? g.letter = some unit ∧ unit.toNat = g.unit.seconds := by
  unfold Segment.letter
  cases g.isCapital <;> cases g.unit <;> exact ⟨_, rfl, rfl⟩

/-- Only the letters of units stand for one. -/
theorem exists_unit_of_unitSeconds? (h : unitSeconds? c = some unit) :
    ∃ u : TimeUnit, c = u.letter ∨ c = u.capital := by
  unfold unitSeconds? at h
  split at h
  · next hs => exact ⟨.second, eq_of_lowerAscii_eq_letter hs⟩
  · next hm => exact ⟨.minute, eq_of_lowerAscii_eq_letter hm⟩
  · next hh => exact ⟨.hour, eq_of_lowerAscii_eq_letter hh⟩
  · next hd => exact ⟨.day, eq_of_lowerAscii_eq_letter hd⟩
  · next hw => exact ⟨.week, eq_of_lowerAscii_eq_letter hw⟩
  · cases h

theorem isDigit_letter (g : Segment) : g.letter.isDigit = false := by
  unfold Segment.letter
  cases g.isCapital <;> cases g.unit <;> decide

theorem one_le_seconds (u : TimeUnit) : 1 ≤ u.seconds := by
  cases u <;> decide

/-! ## What checked steps come to -/

/-- A number of units, and what it makes of a sum, is checked as if once at the end. -/
theorem checked_seconds (hunit : 1 ≤ unit.toNat) : (Count.ofNat? n >>= fun value =>
    Count.mul? value unit >>= fun seconds => Count.add? total seconds) =
      Count.ofNat? (total.toNat + n * unit.toNat) := by
  have hmul : n ≤ n * unit.toNat := Nat.le_mul_of_pos_right n hunit
  calc (Count.ofNat? n >>= fun value => Count.mul? value unit >>= fun seconds =>
        Count.add? total seconds)
      = (Count.ofNat? n >>= fun value => Count.mul? value unit) >>= Count.add? total :=
        (bind_assoc _ _ _).symm
    _ = (Count.ofNat? (n * unit.toNat)) >>= Count.add? total := by
        rw [show (Count.ofNat? n >>= fun value => Count.mul? value unit) = _ from
          Count.ofNat?_bind (f := (· * unit.toNat)) hmul]
    _ = Count.ofNat? (total.toNat + n * unit.toNat) :=
        Count.ofNat?_bind (f := (total.toNat + ·)) (Nat.le_add_left _ _)

theorem segmentsFrom_digits (h : ∀ c ∈ ds, c.isDigit = true) (read : List Char) :
    segmentsFrom total read (ds ++ cs) = segmentsFrom total (read ++ ds) cs := by
  induction ds generalizing read with
  | nil => rw [List.append_nil, List.nil_append]
  | cons d ds ih =>
    obtain ⟨hd, hds⟩ := List.forall_mem_cons.1 h
    rw [List.cons_append, segmentsFrom, if_pos hd, ih hds, List.append_assoc,
      List.singleton_append]

theorem segmentsFrom_letter (hc : c.isDigit = false) : segmentsFrom total ds (c :: cs) =
    if ds.isEmpty then none
    else (unitSeconds? c).bind fun unit => (Count.ofDigits? ds).bind fun value =>
      (Count.mul? value unit).bind fun seconds => (Count.add? total seconds).bind fun next =>
        segmentsFrom next [] cs := by
  rw [segmentsFrom, if_neg (by simp [hc])]
  rfl

/-- A segment adds its exact number of seconds, if the sum is in range. -/
theorem segmentsFrom_text (g : Segment) : segmentsFrom total [] (g.text ++ cs) =
    (Count.ofNat? (total.toNat + g.seconds)).bind fun next => segmentsFrom next [] cs := by
  obtain ⟨unit, hunit, hseconds⟩ := unitSeconds?_letter g
  have hpos : 1 ≤ unit.toNat := hseconds ▸ one_le_seconds g.unit
  rw [Segment.text, List.append_assoc, List.singleton_append, segmentsFrom_digits g.isDigit,
    List.nil_append, segmentsFrom_letter (isDigit_letter g), if_neg (by simp [g.ne_nil]), hunit,
    Count.ofDigits?_eq g.ne_nil g.isDigit, Segment.seconds, ← hseconds, ← checked_seconds hpos]
  simp only [Option.bind_eq_bind, Option.bind_some, Option.bind_assoc]

/-- However the sum is made, it is the exact number of seconds or out of range as that. -/
theorem segmentsFrom_textOf (total : Count) (gs : List Segment) :
    segmentsFrom total [] (textOf gs) = Count.ofNat? (total.toNat + secondsOf gs) := by
  induction gs generalizing total with
  | nil => exact (Count.ofNat?_toNat total).symm
  | cons g gs ih =>
    rw [textOf_cons, segmentsFrom_text, secondsOf_cons, ← Nat.add_assoc]
    simp only [ih]
    exact Count.ofNat?_bind (f := (· + secondsOf gs)) (Nat.le_add_right _ _)

/-- The steps on one segment, taken together: they fail iff one of them does. -/
theorem overflows_cons_iff (g : Segment) (gs : List Segment) : Overflows total (g :: gs) ↔
    ∀ next, Count.ofNat? (total.toNat + g.seconds) = some next → Overflows next gs := by
  obtain ⟨unit, hunit, hseconds⟩ := unitSeconds?_letter g
  have hpos : 1 ≤ unit.toNat := hseconds ▸ one_le_seconds g.unit
  rw [Segment.seconds, ← hseconds, ← checked_seconds hpos, ← Count.ofDigits?_eq g.ne_nil g.isDigit]
  constructor
  · intro h next hnext
    obtain ⟨value, hvalue, hnext⟩ := Option.bind_eq_some_iff.1 hnext
    obtain ⟨seconds, hproduct, hsum⟩ := Option.bind_eq_some_iff.1 hnext
    cases h <;> simp_all
  · intro h
    cases hvalue : Count.ofDigits? g.digits with
    | none => exact .number hvalue
    | some value =>
    cases hproduct : Count.mul? value unit with
    | none => exact .product hvalue hunit hproduct
    | some seconds =>
    cases hsum : Count.add? total seconds with
    | none => exact .sum hvalue hunit hproduct hsum
    | some next =>
      have hnext : Overflows next gs := h next (by simp [hvalue, hproduct, hsum])
      exact .later hvalue hunit hproduct hsum hnext

/-- A step is out of range iff the exact total is. -/
theorem overflows_iff (total : Count) (gs : List Segment) :
    Overflows total gs ↔ UInt64.size ≤ total.toNat + secondsOf gs := by
  induction gs generalizing total with
  | nil =>
    have hlt : total.toNat < UInt64.size := total.toNat_lt_size
    rw [secondsOf_nil, Nat.add_zero]
    exact ⟨nofun, fun h => absurd h (Nat.not_le.2 hlt)⟩
  | cons g gs ih =>
    rw [overflows_cons_iff, secondsOf_cons, ← Nat.add_assoc]
    simp only [ih]
    cases hnext : Count.ofNat? (total.toNat + g.seconds) with
    | none =>
      have hsize := Count.ofNat?_eq_none_iff.1 hnext
      exact ⟨fun _ => Nat.le_add_right_of_le hsize, nofun⟩
    | some next => simp [Count.ofNat?_eq_some_iff.1 hnext]

/-! ## Texts that can be read -/

/-- What is read to the end is a list of segments, the first of which may have been begun. -/
theorem exists_segments_of_segmentsFrom {read : List Char} (hread : ∀ c ∈ read, c.isDigit = true)
    (h : segmentsFrom total read cs = some t) : ∃ gs, read ++ cs = textOf gs := by
  induction cs generalizing total read with
  | nil =>
    rw [segmentsFrom] at h
    split at h
    · next hnil => exact ⟨[], by simpa using hnil⟩
    · cases h
  | cons c cs ih =>
    cases hc : c.isDigit with
    | true =>
      have hmore : ∀ d ∈ read ++ [c], d.isDigit = true := by
        simpa [or_imp, forall_and] using ⟨hread, hc⟩
      rw [segmentsFrom, if_pos hc] at h
      obtain ⟨gs, hgs⟩ := ih hmore h
      exact ⟨gs, by rw [← hgs, List.append_assoc, List.singleton_append]⟩
    | false =>
      rw [segmentsFrom_letter hc] at h
      obtain ⟨hne, h⟩ := Option.ite_none_left_eq_some.1 h
      simp only [Option.bind_eq_some_iff] at h
      obtain ⟨unit, hunit, value, -, seconds, -, next, -, h⟩ := h
      obtain ⟨gs, hgs⟩ := ih (List.forall_mem_nil _) h
      rw [List.nil_append] at hgs
      have hne : read ≠ [] := by simpa using hne
      obtain ⟨u, rfl | rfl⟩ := exists_unit_of_unitSeconds? hunit
      · exact ⟨⟨read, u, false, hne, hread⟩ :: gs, by simp [Segment.text, Segment.letter, hgs]⟩
      · exact ⟨⟨read, u, true, hne, hread⟩ :: gs, by simp [Segment.text, Segment.letter, hgs]⟩

theorem textOf_ne_nil (h : gs ≠ []) : textOf gs ≠ [] := by
  obtain ⟨g, gs, rfl⟩ := List.exists_cons_of_ne_nil h
  simp [Segment.text]

/-- Segments do not look like a number: each ends in a letter. -/
theorem all_isDigit_textOf (h : gs ≠ []) : (textOf gs).all Char.isDigit = false := by
  obtain ⟨g, gs, rfl⟩ := List.exists_cons_of_ne_nil h
  simp [Segment.text, isDigit_letter]

/-- A text that stands for a number of seconds is read as it, if it is in range. -/
theorem ofText?_of_denotes (h : Denotes (trim cs) n) : ofText? cs = Count.ofNat? n := by
  unfold ofText?
  dsimp only
  generalize trim cs = text at h
  cases h with
  | number hne hdigit =>
    rw [if_neg (by simpa using hne), if_pos (List.all_eq_true.2 hdigit),
      Count.ofDigits?_eq hne hdigit]
  | @segments gs hne =>
    rw [if_neg (by simpa using textOf_ne_nil hne), if_neg (by simp [all_isDigit_textOf hne]),
      segmentsFrom_textOf]
    exact congrArg Count.ofNat? (Nat.zero_add _)

/-- Nothing else is read. -/
theorem exists_denotes_of_ofText? (h : ofText? cs = some t) : ∃ n, Denotes (trim cs) n := by
  unfold ofText? at h
  dsimp only at h
  generalize trim cs = text at h ⊢
  split at h
  · cases h
  next hne =>
  have hne : text ≠ [] := by simpa using hne
  split at h
  · next hdigit => exact ⟨_, .number hne (List.all_eq_true.1 hdigit)⟩
  · obtain ⟨gs, hgs⟩ := exists_segments_of_segmentsFrom (List.forall_mem_nil _) h
    rw [List.nil_append] at hgs
    subst hgs
    exact ⟨_, .segments fun hnil => hne (by rw [hnil, textOf_nil])⟩

theorem secondsOf_perm (h : gs.Perm gs') : secondsOf gs = secondsOf gs' :=
  (h.map Segment.seconds).sum_eq

/-- A text is read as an interval iff, but for blanks around it, it is a number or a list of
segments that stands for less than 2 ^ 64 seconds, and it is read as just that many. It is refused
iff it is neither, or stands for more. While segments are added up, a number, a product or a sum is out of
range iff the exact total is, and their order does not matter. -/
theorem reads_exactly (s : String) :
    (∀ n, (parse? s).map UInt64.toNat = some n ↔ Denotes (trim s.toList) n ∧ n < 2 ^ 64) ∧
    (parse? s = none ↔ ∀ n, Denotes (trim s.toList) n → 2 ^ 64 ≤ n) ∧
    ∀ gs : List Segment, trim s.toList = textOf gs →
      (Overflows 0 gs ↔ 2 ^ 64 ≤ secondsOf gs) ∧
      ∀ (gs' : List Segment) (s' : String), gs.Perm gs' → trim s'.toList = textOf gs' →
        parse? s' = parse? s := by
  have hread : ∀ {s n}, Denotes (trim s.toList) n → parse? s = Count.ofNat? n := ofText?_of_denotes
  have hsegments : ∀ {s gs}, trim s.toList = textOf gs →
      parse? s = if gs = [] then none else Count.ofNat? (secondsOf gs) := by
    intro s gs hs
    split
    · next hnil => simp [parse?, ofText?, hs, hnil]
    · next hne => exact hread (hs ▸ .segments hne)
  refine ⟨fun n => ⟨fun h => ?_, fun ⟨h, hlt⟩ => ?_⟩, ⟨fun h n hn => ?_, fun h => ?_⟩,
    fun gs hs => ⟨?_, fun gs' s' hperm hs' => ?_⟩⟩
  · obtain ⟨t, ht, rfl⟩ := Option.map_eq_some_iff.1 h
    obtain ⟨n, hn⟩ := exists_denotes_of_ofText? ht
    obtain rfl := Count.ofNat?_eq_some_iff.1 ((hread hn).symm.trans ht)
    exact ⟨hn, t.toNat_lt⟩
  · rw [hread h]
    cases hn : Count.ofNat? n with
    | none => exact absurd hlt (Nat.not_lt.2 (Count.ofNat?_eq_none_iff.1 hn))
    | some t => exact congrArg some (Count.ofNat?_eq_some_iff.1 hn)
  · exact Count.ofNat?_eq_none_iff.1 ((hread hn).symm.trans h)
  · refine Option.eq_none_iff_forall_ne_some.2 fun t ht => ?_
    obtain ⟨n, hn⟩ := exists_denotes_of_ofText? ht
    have hnone := Count.ofNat?_eq_none_iff.2 (h n hn)
    rw [← hread hn, ht] at hnone
    cases hnone
  · exact (overflows_iff 0 gs).trans (by rw [UInt64.toNat_zero, Nat.zero_add]; rfl)
  · have hnil : gs = [] ↔ gs' = [] := by
      rw [← List.length_eq_zero_iff, hperm.length_eq, List.length_eq_zero_iff]
    rw [hsegments hs, hsegments hs', secondsOf_perm hperm]
    simp only [hnil]

-- a number of weeks that is in range, though not as a number of seconds
example : parse? "1H30m" = some 5400 ∧ parse? "30500568904944w" = none := by decide

end HubConsole.Interval
