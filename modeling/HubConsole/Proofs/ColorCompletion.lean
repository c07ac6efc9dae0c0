import HubConsole.Proofs.ColorList
import HubConsole.Proofs.Completion

/-! # Completing a list of colors

In a list of colors the name after the last comma is completed. Where what stands before that comma
reads as a style, so does every completion, unless it puts a color after two others
(`parses_suggested`): the completion looks at the last name only, and the reading counts the colors
of the whole list. -/

namespace HubConsole
open Text Result

namespace Style
variable {s : Style} {typed before last w : String}

/-- What stands before the last comma of a text. -/
def BeforeLast (typed before : String) : Prop :=
  ∃ last, typed = before ++ "," ++ last ∧ ',' ∉ last.toList

/-- A completion puts a color after two others. -/
def AddsThird (typed w : String) : Prop :=
  ∃ before, BeforeLast typed before ∧ (colorsOf (namesIn before)).length = 2 ∧
    ∃ c : Color, w = before ++ "," ++ c.name

theorem BeforeLast.cutAfterLast (h : BeforeLast typed before) :
    (cutAfterLast (· == ',') typed.toList).1 = before.toList ++ [','] := by
  obtain ⟨last, rfl, hlast⟩ := h
  rw [toList_comma, cutAfterLast_append_cons (by simp) (beq_eq_false_of_not_mem hlast)]

theorem BeforeLast.unique {other : String} (h : BeforeLast typed before)
    (k : BeforeLast typed other) : before = other := by
  have hcut := h.cutAfterLast
  rw [k.cutAfterLast] at hcut
  exact (String.toList_inj.1 (List.append_cancel_right hcut)).symm

theorem BeforeLast.comma_mem (h : BeforeLast typed before) : ',' ∈ typed.toList := by
  obtain ⟨last, rfl, -⟩ := h
  simp

theorem exists_beforeLast (h : ',' ∈ typed.toList) : ∃ before, BeforeLast typed before := by
  obtain ⟨after, before, hreverse, hafter⟩ :=
    List.eq_append_cons_of_mem (List.mem_reverse.2 h)
  refine ⟨.ofList before.reverse, .ofList after.reverse, ?_, by simpa using hafter⟩
  rw [← String.toList_inj, ← List.reverse_inj, hreverse]
  simp

theorem namesIn_append (before last : String) :
    namesIn (before ++ "," ++ last) = namesIn before ++ namesIn last := by
  simp only [namesIn_eq, toList_comma]
  rw [pieces_append_cons (by simp), List.map_append]

theorem IsName.comma_not_mem {name : String} (h : IsName name) : ',' ∉ name.toList :=
  fun hc => absurd (h.isLower _ hc) (by decide)

theorem namesIn_name {name : String} (h : IsName name) : namesIn name = [name] := by
  rw [namesIn_eq, pieces_of_not_mem h.comma_not_mem, List.map_singleton, h.nameOf]

/-- A third color is refused. -/
theorem parse_third (h : parse before = .ok s) (full : (colorsOf (namesIn before)).length = 2)
    (c : Color) : parse (before ++ "," ++ c.name) = .error .tooManyColors := by
  have hc : IsName c.name := .inl ⟨c, rfl⟩
  have hpieces : pieces (· == ',') (before ++ "," ++ c.name).toList =
      pieces (· == ',') before.toList ++ [c.name.toList] := by
    rw [toList_comma, pieces_append_cons (by simp), pieces_of_not_mem hc.comma_not_mem]
  rw [parse_eq] at h
  obtain ⟨l, hl, -⟩ := map_eq_ok_iff.1 h
  obtain ⟨-, -, rfl⟩ := Listed.ofText_eq_ok_iff.1 hl
  have hlast : Listed.ofText (before ++ "," ++ c.name) = .error .tooManyColors := by
    rw [Listed.ofText, hpieces, Listed.addAll_append hl]
    exact Listed.addAll_cons_error (Listed.add_color_of_full (nameOf_color c) full.ge)
  rw [parse_eq, hlast]
  rfl

/-- Any other name may be added to a list that is read. -/
theorem exists_parse_append {name : String} (h : parse before = .ok s) (hname : IsName name)
    (few : ∀ c : Color, c.name = name → (colorsOf (namesIn before)).length ≠ 2) :
    ∃ r, parse (before ++ "," ++ name) = .ok r := by
  obtain ⟨known, few'⟩ := exists_parse_iff.1 ⟨s, h⟩
  rw [exists_parse_iff, namesIn_append, namesIn_name hname, colorsOf_append]
  refine ⟨fun n hn => ?_, ?_⟩
  · rcases List.mem_append.1 hn with hn | hn
    · exact known n hn
    · rw [List.mem_singleton.1 hn]
      exact hname
  · rcases hname with ⟨c, rfl⟩ | ⟨a, rfl⟩
    · have hroom := few c rfl
      rw [colorsOf_color, List.length_append]
      show (colorsOf (namesIn before)).length + 1 ≤ 2
      omega
    · rw [colorsOf_attribute, List.length_append]
      exact few'

theorem isName_of_mem_words {word : String} (h : word ∈ words) : IsName word := by
  have hall : ∀ word ∈ words,
      word ∈ Color.all.map Color.name ∨ word ∈ Attribute.all.map Attribute.name := by decide
  rcases hall word h with h | h
  · obtain ⟨c, -, rfl⟩ := List.mem_map.1 h
    exact .inl ⟨c, rfl⟩
  · obtain ⟨a, -, rfl⟩ := List.mem_map.1 h
    exact .inr ⟨a, rfl⟩

/-- A name alone is read. -/
theorem exists_parse_name {name : String} (h : IsName name) : ∃ r, parse name = .ok r := by
  rw [exists_parse_iff, namesIn_name h]
  refine ⟨by simpa using h, ?_⟩
  rcases h with ⟨c, rfl⟩ | ⟨a, rfl⟩
  · rw [colorsOf_color]
    simp [colorsOf]
  · rw [colorsOf_attribute]
    simp [colorsOf]

/-- A completion is a name that goes on from what is typed after the last comma, with what stands
before it as it is. -/
theorem mem_suggest (h : w ∈ Kind.style.suggest typed) :
    (',' ∉ typed.toList ∧ w ∈ words) ∨
      ∃ before name, BeforeLast typed before ∧ name ∈ words ∧ w = before ++ "," ++ name := by
  have hsuggest : Kind.style.suggest typed =
      (Kind.completeFrom words (.ofList (cutAfterLast (· == ',') typed.toList).2)).map
        fun name => .ofList (cutAfterLast (· == ',') typed.toList).1 ++ name := rfl
  rw [hsuggest] at h
  obtain ⟨name, hname, rfl⟩ := List.mem_map.1 h
  have hword : name ∈ words := List.mem_of_mem_filter hname
  by_cases hcomma : ',' ∈ typed.toList
  · obtain ⟨before, hbefore⟩ := exists_beforeLast hcomma
    refine .inr ⟨before, name, hbefore, hword, ?_⟩
    rw [hbefore.cutAfterLast]
    simp
  · refine .inl ⟨hcomma, ?_⟩
    rw [cutAfterLast_of_forall (beq_eq_false_of_not_mem hcomma)]
    simpa using hword

/-- Where what stands before the last comma reads as a style, every completion does too, but for a
color after two others, which are too many. -/
theorem parses_suggested
    (accepted : ',' ∈ typed.toList → ∃ before s, BeforeLast typed before ∧ parse before = .ok s)
    (h : w ∈ Kind.style.suggest typed) :
    ((∃ s, parse w = .ok s) ↔ ¬ AddsThird typed w) ∧
      (AddsThird typed w → parse w = .error .tooManyColors) := by
  have hthird : AddsThird typed w → parse w = .error .tooManyColors := by
    rintro ⟨before, hbefore, full, c, rfl⟩
    obtain ⟨other, s, hother, hs⟩ := accepted hbefore.comma_mem
    obtain rfl := hbefore.unique hother
    exact parse_third hs full c
  refine ⟨⟨?_, fun hnot => ?_⟩, hthird⟩
  · rintro ⟨s, hs⟩ hadds
    rw [hthird hadds] at hs
    cases hs
  · rcases mem_suggest h with ⟨-, hword⟩ | ⟨before, name, hbefore, hword, rfl⟩
    · exact exists_parse_name (isName_of_mem_words hword)
    · obtain ⟨other, s, hother, hs⟩ := accepted hbefore.comma_mem
      obtain rfl := hbefore.unique hother
      refine exists_parse_append hs (isName_of_mem_words hword) ?_
      rintro c rfl full
      exact hnot ⟨before, hbefore, full, c, rfl⟩

/-- After two colors an attribute may still follow, and no color. -/
theorem parses_suggested_bold :
    (∃ before s, BeforeLast "red,blue,b" before ∧ parse before = .ok s) ∧
      ("red,blue,bold" ∈ Kind.style.suggest "red,blue,b" ∧ ∃ s, parse "red,blue,bold" = .ok s) ∧
      "red,blue,black" ∈ Kind.style.suggest "red,blue,b" ∧
        parse "red,blue,black" = .error .tooManyColors := by
  have hbefore : BeforeLast "red,blue,b" "red,blue" := ⟨"b", by decide, by decide⟩
  have haccepted : ∃ before s, BeforeLast "red,blue,b" before ∧ parse before = .ok s :=
    ⟨"red,blue", ⟨.red, .blue, []⟩, hbefore, by rfl⟩
  have hbold : "red,blue,bold" ∈ Kind.style.suggest "red,blue,b" := by decide
  have hblack : "red,blue,black" ∈ Kind.style.suggest "red,blue,b" := by decide
  have hthird : AddsThird "red,blue,b" "red,blue,black" :=
    ⟨"red,blue", hbefore, by decide, .black, by decide⟩
  have hroom : ¬ AddsThird "red,blue,b" "red,blue,bold" := by
    rintro ⟨before, hother, -, c, hc⟩
    obtain rfl := hother.unique hbefore
    revert hc
    cases c <;> decide
  exact ⟨haccepted, ⟨hbold, (parses_suggested (fun _ => haccepted) hbold).1.2 hroom⟩, hblack,
    (parses_suggested (fun _ => haccepted) hblack).2 hthird⟩

/-- It is not so that every completion after an accepted list is accepted. -/
theorem not_parses_suggested : ¬ ∀ typed w : String,
    (',' ∈ typed.toList → ∃ before s, BeforeLast typed before ∧ parse before = .ok s) →
      w ∈ Kind.style.suggest typed → ∃ s, parse w = .ok s := by
  intro h
  have hbefore : BeforeLast "red,blue,bla" "red,blue" := ⟨"bla", by decide, by decide⟩
  obtain ⟨s, hs⟩ := h "red,blue,bla" "red,blue,black"
    (fun _ => ⟨"red,blue", ⟨.red, .blue, []⟩, hbefore, by rfl⟩) (by decide)
  have hrefused : parse "red,blue,black" = .error .tooManyColors := by rfl
  rw [hrefused] at hs
  cases hs

end Style
end HubConsole
