import HubConsole.Proofs.SizeText
import HubConsole.Proofs.Style
import HubConsole.Setting.Kind

/-! # The canonical text of a value

What is read as a value of some kind is kept as a text that reads back as the value
(`Kind.parse_raw`), and that has no blanks at its ends if what was read has none
(`Kind.isTrimmed_raw`). -/

namespace HubConsole
open Text Result

/-! ## Numbers -/

theorem signedOfText?_range {cs : List Char} {n : Int} (h : signedOfText? cs = some n) :
    -signedLimit ≤ n ∧ n < signedLimit := by
  unfold signedOfText? at h
  dsimp only at h
  split at h <;>
  · split at h
    · split at h
      · next hrange => exact Option.some.inj h ▸ hrange
      · simp at h
    · simp at h

theorem isDigit_of_toDigits_eq {m : Nat} {c : Char} {cs : List Char}
    (h : Nat.toDigits 10 m = c :: cs) : c.isDigit = true :=
  List.all_eq_true.1 (Count.all_isDigit_toDigits m) c (h ▸ List.mem_cons_self)

theorem toList_toString_ofNat (m : Nat) : (toString (Int.ofNat m)).toList = Nat.toDigits 10 m :=
  Nat.toList_repr

theorem toList_toString_negSucc (m : Nat) :
    (toString (Int.negSucc m)).toList = '-' :: Nat.toDigits 10 (m + 1) := by
  show ("-" ++ Nat.repr (m + 1)).toList = _
  rw [String.toList_append, Nat.toList_repr]
  rfl

theorem signedOfText?_toString {n : Int} (hlo : -signedLimit ≤ n) (hhi : n < signedLimit) :
    signedOfText? (toString n).toList = some n := by
  cases n with
  | ofNat m =>
    rw [toList_toString_ofNat]
    unfold signedOfText?
    dsimp only
    split
    · next h => exact absurd (isDigit_of_toDigits_eq h) (by decide)
    · next h => exact absurd (isDigit_of_toDigits_eq h) (by decide)
    · rw [if_pos (by simp [Count.all_isDigit_toDigits]), Count.digitsValue_toDigits, Int.one_mul]
      exact if_pos ⟨hlo, hhi⟩
  | negSucc m =>
    rw [toList_toString_negSucc]
    unfold signedOfText?
    dsimp only
    split
    · next h => exact absurd (List.cons.inj h).1 (by decide)
    · next h =>
      rw [← (List.cons.inj h).2, if_pos (by simp [Count.all_isDigit_toDigits]),
        Count.digitsValue_toDigits, Int.neg_one_mul]
      exact if_pos ⟨hlo, hhi⟩
    · next hne => exact absurd rfl (hne _)

theorem trim_toString (n : Int) : trim (toString n).toList = (toString n).toList := by
  have hdigit : ∀ {m : Nat}, ∀ c ∈ Nat.toDigits 10 m, isBlank c = false := fun {m} c hc =>
    isBlank_of_isDigit (List.all_eq_true.1 (Count.all_isDigit_toDigits m) c hc)
  refine trim_eq_self_of_forall fun c hc => ?_
  cases n with
  | ofNat m =>
    rw [toList_toString_ofNat] at hc
    exact hdigit c hc
  | negSucc m =>
    rw [toList_toString_negSucc] at hc
    rcases List.mem_cons.1 hc with rfl | hc
    · decide
    · exact hdigit c hc

theorem isTrimmed_toString (n : Int) : IsTrimmed (toString n) := by
  refine ⟨trim_toString n, fun h => ?_⟩
  have hlist := congrArg String.toList h
  cases n with
  | ofNat m =>
    rw [toList_toString_ofNat] at hlist
    exact Nat.toDigits_ne_nil hlist
  | negSucc m =>
    rw [toList_toString_negSucc] at hlist
    cases hlist

theorem Interval.parse?_text (u : Count) : Interval.parse? u.text = some u := by
  unfold Interval.parse? Interval.ofText?
  rw [Count.toList_text, Count.trim_toDigits]
  dsimp only
  rw [if_neg (by simp), if_pos (Count.all_isDigit_toDigits _), Count.ofDigits?_toDigits,
    Count.ofNat?_toNat]

/-! ## Paths -/

theorem expandHome_absolute {home cs : List Char} (h : cs.head? = some '/') :
    expandHome home cs = cs := by
  unfold expandHome
  split
  · simp at h
  · simp at h
  · rfl

/-- A path below a directory ends as the path does, or in a slash. -/
theorem getLast?_pathBelow {dir rest : List Char} (h : ∀ c ∈ rest.getLast?, isBlank c = false) :
    ∀ c ∈ (pathBelow dir rest).getLast?, isBlank c = false := by
  intro c hc
  rw [Option.mem_def] at hc
  cases hrest : rest.getLast? with
  | some b =>
    have hcb : b = c := by
      unfold pathBelow at hc
      split at hc <;> simpa [List.getLast?_append, List.getLast?_cons, hrest] using hc
    exact h c (hcb ▸ hrest)
  | none =>
    rw [List.getLast?_eq_none_iff] at hrest
    subst hrest
    have hslash : '/' = c := by
      unfold pathBelow at hc
      split at hc
      · next hdir =>
        rw [beq_iff_eq] at hdir
        simpa [hdir] using hc
      · simpa using hc
    exact hslash ▸ (by decide)

theorem getLast?_of_dropWhile {p : Char → Bool} {cs : List Char} {c : Char}
    (h : (cs.dropWhile p).getLast? = some c) : cs.getLast? = some c := by
  obtain ⟨lead, hlead⟩ := List.dropWhile_suffix p (l := cs)
  rw [← hlead, List.getLast?_append, h]
  rfl

theorem getLast?_expandHome {home cs : List Char} (h : ∀ c ∈ cs.getLast?, isBlank c = false) :
    ∀ c ∈ (expandHome home cs).getLast?, isBlank c = false := by
  unfold expandHome
  split
  · exact getLast?_pathBelow (by simp)
  · next rest =>
    refine getLast?_pathBelow fun c hc => h c ?_
    have hrest : rest.getLast? = some c := getLast?_of_dropWhile hc
    simp [List.getLast?_cons, hrest]
  · exact h

theorem path?_eq_some {home s p : String} (h : path? home s = some p) :
    p.toList.head? = some '/' ∧ IsTrimmed p := by
  unfold path? at h
  dsimp only at h
  split at h
  · next hhead =>
    obtain rfl := Option.some.inj h
    rw [beq_iff_eq] at hhead
    have hslash : '/' ∈ (String.ofList (expandHome home.toList (trim s.toList))).toList := by
      rw [String.toList_ofList]
      exact List.mem_of_mem_head? hhead
    refine ⟨by rwa [String.toList_ofList], ?_, ne_empty_of_mem hslash⟩
    rw [String.toList_ofList]
    refine trim_eq_self_iff.2 ⟨fun c hc => ?_, getLast?_expandHome (getLast?_trim _)⟩
    rw [hhead] at hc
    exact Option.some.inj hc ▸ (by decide)
  · simp at h

theorem path?_raw {home s p : String} (h : path? home s = some p) : path? home p = some p := by
  obtain ⟨hhead, htrim, -⟩ := path?_eq_some h
  unfold path?
  rw [htrim, expandHome_absolute hhead]
  simp [hhead]

/-! ## Choices -/

theorem sameIgnoringCase_iff {s t : String} :
    sameIgnoringCase s t = true ↔ s.toList.map lowerAscii = t.toList.map lowerAscii := by
  simp [sameIgnoringCase]

theorem choice_raw {options : List String} {s o : String}
    (h : (options.find? fun o => sameIgnoringCase o (trimmed s)) = some o) :
    (IsTrimmed s → IsTrimmed o) ∧
      (options.find? fun p => sameIgnoringCase p (trimmed o)) = some o := by
  have hfound := List.find?_some h
  have hsame := sameIgnoringCase_iff.1 hfound
  rw [toList_trimmed] at hsame
  have htrim := trim_eq_self_of_lower hsame (trim_trim _)
  have heq : (fun p => sameIgnoringCase p (trimmed o)) =
      fun p => sameIgnoringCase p (trimmed s) := by
    funext p
    unfold sameIgnoringCase
    rw [toList_trimmed, toList_trimmed, htrim, hsame]
  rw [heq]
  refine ⟨fun hs => ⟨htrim, ?_⟩, h⟩
  rintro rfl
  rw [hs.1] at hsame
  exact hs.2 (by simpa using hsame.symm)

theorem bool?_raw (b : Bool) : bool? (Value.bool b).raw = some b := by
  cases b <;> decide

namespace Kind

/-- What is read as a value of each kind. -/
inductive Reads (home s : String) : Kind → Value → Prop
  | bool {b : Bool} (h : bool? s = some b) : Reads home s .bool (.bool b)
  | int {lo hi n : Int} (h : signedOfText? (trim s.toList) = some n) (range : ¬ (n < lo ∨ hi < n)) :
      Reads home s (.int lo hi) (.int n)
  | text : Reads home s .text (.text s)
  | choice {options : List String} {o : String}
      (h : (options.find? fun o => sameIgnoringCase o (trimmed s)) = some o) :
      Reads home s (.choice options) (.text o)
  | path {p : String} (h : path? home s = some p) : Reads home s .path (.path p)
  | pattern (h : Pattern.report? s = none) : Reads home s .pattern (.pattern s)
  | interval {u : Count} (h : Interval.parse? s = some u) : Reads home s .interval (.interval u)
  | speed {u : Count} (h : Size.parseSpeed? s = some u) : Reads home s .speed (.speed u)
  | style {st : Style} (h : Style.parse s = .ok st) : Reads home s .style (.style st)

variable {k : Kind} {home s : String} {v : Value}

theorem parse_eq_ok_iff : k.parse home s = .ok v ↔ Reads home s k v := by
  constructor
  · intro h
    cases k <;> simp only [parse] at h
    case int lo hi =>
      split at h
      · next n hn =>
        split at h
        · simp at h
        · next range => exact pure_eq_ok_iff.1 h ▸ .int hn range
      · simp at h
    case text => exact pure_eq_ok_iff.1 h ▸ .text
    all_goals
      split at h
      · next hread => exact pure_eq_ok_iff.1 h ▸ (by constructor; exact hread)
      · simp at h
  · intro h
    cases h with
    | int h range =>
      simp only [parse, h]
      exact if_neg range
    | text => rfl
    | bool h | choice h | path h | pattern h | interval h | speed h | style h =>
      simp only [parse, h]
      rfl

/-- What a value was read from and its canonical text read as the same. -/
theorem Reads.raw (h : Reads home s k v) : Reads home v.raw k v := by
  cases h with
  | bool => exact .bool (bool?_raw _)
  | int h range =>
    obtain ⟨hlo, hhi⟩ := signedOfText?_range h
    exact .int (by rw [Value.raw, trim_toString, signedOfText?_toString hlo hhi]) range
  | text => exact .text
  | choice h => exact .choice (choice_raw h).2
  | path h => exact .path (path?_raw h)
  | pattern h => exact .pattern h
  | interval => exact .interval (Interval.parse?_text _)
  | speed => exact .speed (Size.parseSpeed?_text _)
  | style h => exact .style (Style.parse_text (Style.ordered_of_parse h))

/-- The canonical text of a value reads back as the value, whatever text the value was read from. -/
theorem parse_raw (h : k.parse home s = .ok v) : k.parse home v.raw = .ok v :=
  parse_eq_ok_iff.2 (parse_eq_ok_iff.1 h).raw

/-- Blanks, letter case, the order of names and a repeated name are no part of a style. -/
theorem parse_raw_style :
    style.parse "/" "Bold, red ,bold" = .ok (.style ⟨.red, .default, [.bold]⟩) ∧
      style.parse "/" "red,bold" = .ok (.style ⟨.red, .default, [.bold]⟩) := by
  have hread : style.parse "/" "Bold, red ,bold" = .ok (.style ⟨.red, .default, [.bold]⟩) := by rfl
  exact ⟨hread, parse_raw hread⟩

/-- The canonical text of what was read from a trimmed text is trimmed. -/
theorem isTrimmed_raw (h : k.parse home s = .ok v) (hs : IsTrimmed s) : IsTrimmed v.raw := by
  rw [parse_eq_ok_iff] at h
  cases h with
  | @bool b =>
    cases b
    · exact ⟨by decide, by decide⟩
    · exact ⟨by decide, by decide⟩
  | int => exact isTrimmed_toString _
  | text | pattern => exact hs
  | choice h => exact (choice_raw h).1 hs
  | path h => exact (path?_eq_some h).2
  | interval | speed => exact Count.isTrimmed_text _
  | style h => exact Style.isTrimmed_text (Style.ordered_of_parse h)

end Kind
end HubConsole
