import HubConsole.Proofs.IntervalText
import Mathlib.Algebra.Order.BigOperators.Group.List
import Mathlib.Algebra.Order.Group.Nat

/-! # The text of an interval

An interval is written in parts, from long units to short ones: of each unit as many as fit into what
the longer ones leave, and nothing if none does (`Splits`). What a unit leaves is less than one of it,
which bounds every later part. The parts make up the whole interval, since a second always fits, so
its text is read back as it (`written_in_parts`). -/

namespace HubConsole.Interval
open Text

/-- A number of units of one length. -/
structure Part where
  count : Nat
  unit : TimeUnit

namespace Part

def text (p : Part) : List Char := Nat.toDigits 10 p.count ++ [p.unit.letter]

def seconds (p : Part) : Nat := p.count * p.unit.seconds

/-- The segment that a part is written as. -/
def segment (p : Part) : Segment where
  digits := Nat.toDigits 10 p.count
  unit := p.unit
  isCapital := false
  ne_nil := Nat.toDigits_ne_nil
  isDigit := List.all_eq_true.1 (Count.all_isDigit_toDigits p.count)

end Part

namespace TimeUnit

/-- From long to short. -/
def all : List TimeUnit := [week, day, hour, minute, second]

/-- How many of a unit make one of the next longer unit. -/
def limit? : TimeUnit → Option Nat
  | week => none
  | day => some 7
  | hour => some 24
  | minute => some 60
  | second => some 60

end TimeUnit

/-- `ps` make up `n` seconds in some of `units`, taken in order, and none of them reaches up to a
longer unit. -/
structure Splits (units : List TimeUnit) (n : Nat) (ps : List Part) : Prop where
  sublist : (ps.map Part.unit).Sublist units
  count_pos : ∀ p ∈ ps, 0 < p.count
  sum_seconds : (ps.map Part.seconds).sum = n
  seconds_lt : ∀ u ∈ units, ∀ p ∈ ps, p.unit.seconds < u.seconds → p.seconds < u.seconds

variable {cs : List Char} {n : Nat} {p : Part} {ps : List Part} {u : TimeUnit}
  {units : List TimeUnit}

theorem textOf_segments (ps : List Part) : textOf (ps.map Part.segment) = ps.flatMap Part.text := by
  rw [textOf, List.flatMap_map]
  rfl

theorem secondsOf_segments (ps : List Part) :
    secondsOf (ps.map Part.segment) = (ps.map Part.seconds).sum := by
  have hseconds : Segment.seconds ∘ Part.segment = Part.seconds := by
    funext p
    exact congrArg (· * p.unit.seconds) Nat.ofDigitChars_ten_toDigits
  rw [secondsOf, List.map_map, hseconds]

/-- There are no blanks in a text that stands for an interval. -/
theorem Denotes.trim_eq (h : Denotes cs n) : trim cs = cs := by
  refine trim_eq_self_of_forall fun c hc => ?_
  cases h with
  | number _ hdigit => exact isBlank_of_isDigit (hdigit c hc)
  | segments _ =>
    obtain ⟨g, -, hc⟩ := List.mem_flatMap.1 hc
    rcases List.mem_append.1 hc with hc | hc
    · exact isBlank_of_isDigit (g.isDigit c hc)
    · rw [List.mem_singleton.1 hc, Segment.letter]
      cases g.isCapital <;> cases g.unit <;> decide

/-! ## Units -/

theorem textUnits_eq : textUnits = TimeUnit.all.map fun u => (u.seconds, u.letter) := rfl

theorem pairwise_all : TimeUnit.all.Pairwise fun u v => v.seconds < u.seconds := by decide

/-- The next longer unit, of which the limit tells the length. -/
theorem exists_longer {limit : Nat} (h : u.limit? = some limit) :
    ∃ v ∈ TimeUnit.all, u.seconds < v.seconds ∧ v.seconds = limit * u.seconds := by
  cases u with
  | week => cases h
  | day => exact ⟨.week, by decide, by decide, Option.some.inj h ▸ rfl⟩
  | hour => exact ⟨.day, by decide, by decide, Option.some.inj h ▸ rfl⟩
  | minute => exact ⟨.hour, by decide, by decide, Option.some.inj h ▸ rfl⟩
  | second => exact ⟨.minute, by decide, by decide, Option.some.inj h ▸ rfl⟩

/-! ## Parts -/

namespace Splits

theorem nil : Splits [] 0 [] := ⟨.slnil, nofun, rfl, nofun⟩

theorem seconds_le (h : Splits units n ps) (hp : p ∈ ps) : p.seconds ≤ n :=
  h.sum_seconds ▸ List.single_le_sum (fun _ _ => Nat.zero_le _) _ (List.mem_map_of_mem hp)

/-- A unit that does not fit is left out. -/
theorem skip (h : Splits units n ps) (hlt : n < u.seconds) : Splits (u :: units) n ps := by
  refine ⟨h.sublist.cons u, h.count_pos, h.sum_seconds, fun v hv p hp hunit => ?_⟩
  rcases List.mem_cons.1 hv with rfl | hv
  · exact Nat.lt_of_le_of_lt (h.seconds_le hp) hlt
  · exact h.seconds_lt v hv p hp hunit

/-- As many as fit are taken, and the shorter units make up the rest. -/
theorem take (h : Splits units (n % u.seconds) ps) (hle : u.seconds ≤ n)
    (hunits : ∀ v ∈ units, v.seconds < u.seconds) :
    Splits (u :: units) n (⟨n / u.seconds, u⟩ :: ps) := by
  have hpos : 0 < u.seconds := one_le_seconds u
  refine ⟨h.sublist.cons_cons u, ?_, ?_, fun v hv p hp hunit => ?_⟩
  · exact List.forall_mem_cons.2 ⟨Nat.div_pos hle hpos, h.count_pos⟩
  · rw [List.map_cons, List.sum_cons, h.sum_seconds, Part.seconds, Nat.mul_comm]
    exact Nat.div_add_mod n u.seconds
  · rcases List.mem_cons.1 hv with rfl | hv <;> rcases List.mem_cons.1 hp with rfl | hp
    · exact absurd hunit (Nat.lt_irrefl _)
    · exact Nat.lt_of_le_of_lt (h.seconds_le hp) (Nat.mod_lt n hpos)
    · exact absurd hunit (Nat.lt_asymm (hunits v hv))
    · exact h.seconds_lt v hv p hp hunit

theorem pairwise (h : Splits TimeUnit.all n ps) :
    (ps.map Part.unit).Pairwise fun u v => v.seconds < u.seconds :=
  pairwise_all.sublist h.sublist

/-- Of each unit there are fewer than make one of the next longer unit. -/
theorem count_lt (h : Splits TimeUnit.all n ps) (hp : p ∈ ps) {limit : Nat}
    (hlimit : p.unit.limit? = some limit) : p.count < limit := by
  obtain ⟨v, hv, hlt, heq⟩ := exists_longer hlimit
  have hseconds : p.count * p.unit.seconds < limit * p.unit.seconds :=
    heq ▸ h.seconds_lt v hv p hp hlt
  exact Nat.lt_of_mul_lt_mul_right hseconds

end Splits

/-- What is written in units are parts that make up the whole, if the units go down to a second. -/
theorem exists_splits (hunits : units.Pairwise fun u v => v.seconds < u.seconds)
    (h : n = 0 ∨ .second ∈ units) :
    ∃ ps, textIn (units.map fun u => (u.seconds, u.letter)) n = ps.flatMap Part.text ∧
      Splits units n ps := by
  induction units generalizing n with
  | nil =>
    obtain rfl : n = 0 := by simpa using h
    exact ⟨[], rfl, .nil⟩
  | cons u units ih =>
    obtain ⟨hu, hunits⟩ := List.pairwise_cons.1 hunits
    rw [List.map_cons, textIn]
    split
    · next hle =>
      have hrest : n % u.seconds = 0 ∨ .second ∈ units := by
        rcases h with rfl | h
        · exact .inl (Nat.zero_mod _)
        · refine (List.mem_cons.1 h).imp (fun hsecond => ?_) id
          rw [← hsecond]
          exact Nat.mod_one n
      obtain ⟨ps, htext, hps⟩ := ih hunits hrest
      exact ⟨_, by rw [htext, List.flatMap_cons, Part.text, List.append_assoc]; rfl,
        hps.take hle hu⟩
    · next hlt =>
      have hrest : n = 0 ∨ .second ∈ units := by
        refine h.elim .inl fun h => (List.mem_cons.1 h).imp (fun hsecond => ?_) id
        rw [← hsecond] at hlt
        exact Nat.lt_one_iff.1 (Nat.lt_of_not_le hlt)
      obtain ⟨ps, htext, hps⟩ := ih hunits hrest
      exact ⟨ps, htext, hps.skip (Nat.lt_of_not_le hlt)⟩

theorem exists_parts {u : Count} (h : u ≠ 0) :
    ∃ ps, (text u).toList = ps.flatMap Part.text ∧ Splits TimeUnit.all u.toNat ps := by
  rw [text, if_neg h, String.toList_ofList, textUnits_eq]
  exact exists_splits pairwise_all (.inr (by decide))

/-! ## Reading the text of an interval -/

theorem parse?_of_parts {s : String} {u : Count} (hs : s.toList = ps.flatMap Part.text)
    (hne : ps ≠ []) (hsum : (ps.map Part.seconds).sum = u.toNat) : parse? s = some u := by
  have hdenotes : Denotes s.toList u.toNat := by
    rw [hs, ← textOf_segments, ← hsum, ← secondsOf_segments]
    exact .segments (by simpa using hne)
  rw [parse?, ofText?_of_denotes (hdenotes.trim_eq.symm ▸ hdenotes), Count.ofNat?_toNat]

theorem parse?_writtenText (u : Count) : parse? (text u) = some u := by
  by_cases h : u = 0
  · subst h
    have hzero : (text 0).toList = [Part.mk 0 .second].flatMap Part.text := rfl
    exact parse?_of_parts hzero (by simp) rfl
  · obtain ⟨ps, htext, hps⟩ := exists_parts h
    refine parse?_of_parts htext ?_ hps.sum_seconds
    rintro rfl
    exact h (UInt64.toNat_inj.1 hps.sum_seconds.symm)

/-- The text of an interval is read back as it, so no other interval has the same text. But for `0s`
it is made of parts, from long units to short ones and none of them twice, each a number above zero
and below what makes one of the next longer unit. -/
theorem written_in_parts :
    (∀ u : Count, parse? (text u) = some u ∧ ∃ ps : List Part,
      (text u).toList = ps.flatMap Part.text ∧ (ps.map Part.seconds).sum = u.toNat ∧
      ((ps.map Part.unit).Pairwise fun v w => w.seconds < v.seconds) ∧
      (∀ p ∈ ps, ∀ limit ∈ p.unit.limit?, p.count < limit) ∧
      if u = 0 then text u = "0s" else ∀ p ∈ ps, 0 < p.count) ∧
    (∀ s u, parse? s = some u → parse? (text u) = parse? s) ∧
    ∀ u v : Count, text u = text v ↔ u = v := by
  refine ⟨fun u => ⟨parse?_writtenText u, ?_⟩, fun s u hs => ?_, fun u v => ⟨fun h => ?_, ?_⟩⟩
  · by_cases h : u = 0
    · subst h
      exact ⟨[⟨0, .second⟩], rfl, rfl, by decide, by decide, rfl⟩
    · obtain ⟨ps, htext, hps⟩ := exists_parts h
      exact ⟨ps, htext, hps.sum_seconds, hps.pairwise, fun p hp limit => hps.count_lt hp,
        by rw [if_neg h]; exact hps.count_pos⟩
  · rw [hs, parse?_writtenText]
  · have hread := parse?_writtenText u
    rw [h, parse?_writtenText] at hread
    exact (Option.some.inj hread).symm
  · rintro rfl
    rfl

example : text 90061 = "1d1h1m1s" ∧ text 604800 = "1w" := by decide

end HubConsole.Interval
