import HubConsole.Clock.Written

/-! # Time formats

A format is a sequence of characters and of specifiers after percent signs (`Reads`). What it shows
of a time is put together from what they show (`Shows`). All specifiers can be written but the one
for a zone in any form, which can only be read: a format shows every time, or, if that specifier
stands in it, no time at all (`exists_shows_iff`). -/

namespace HubConsole.Clock

namespace Format
/-- A specifier without a padding, and the items it stands for. -/
inductive Plain : List Char → List Item → Prop
  | letter {c items} (h : letter? c = some items) : Plain [c] items
  | zoneColon : Plain [':', 'z'] [.word .zoneColon]
  | zoneSeconds : Plain [':', ':', 'z'] [.word .zoneSeconds]
  | zoneHours : Plain [':', ':', ':', 'z'] [.word .zoneHours]
  | fraction : Plain ['.', 'f'] [.word .fraction]
  | point {c n} (h : (c, n) ∈ [('3', 3), ('6', 6), ('9', 9)]) :
      Plain ['.', c, 'f'] [.word (.digits true n)]
  | digits {c n} (h : (c, n) ∈ [('3', 3), ('6', 6), ('9', 9)]) :
      Plain [c, 'f'] [.word (.digits false n)]

/-- What may follow a percent sign, and the items it stands for. -/
inductive Specifies : List Char → List Item → Prop
  | plain {spec items} (h : Plain spec items) : Specifies spec items
  | padded {c pad spec f old} (hpad : pad? c = some pad) (h : Plain spec [.field f old]) :
      Specifies (c :: spec) [.field f pad]
  | anyZone : Specifies ['#', 'z'] [.word .anyZone]

/-- A format, taken apart, and the items it stands for. -/
inductive Reads : List Char → List Item → Prop
  | nil : Reads [] []
  | char {c cs items} (ne : c ≠ '%') (rest : Reads cs items) :
      Reads (c :: cs) (.text [c] :: items)
  | specifier {spec out cs items} (specifies : Specifies spec out) (rest : Reads cs items) :
      Reads ('%' :: (spec ++ cs)) (out ++ items)

/-- The specifier for a zone in any form stands in a format. -/
def HasAnyZone (cs : List Char) : Prop :=
  ∃ before items after, Reads before items ∧ cs = before ++ '%' :: '#' :: 'z' :: after

variable {c : Char} {cs spec rest before : List Char} {items out : List Item}

/-! ## Specifiers -/

theorem digits_cases {n : Nat} (h : (c, n) ∈ [('3', 3), ('6', 6), ('9', 9)]) :
    (c = '3' ∧ n = 3) ∨ (c = '6' ∧ n = 6) ∨ (c = '9' ∧ n = 9) := by
  simpa using h

theorem specifier?_letter (h : letter? c = some items) (rest : List Char) :
    specifier? (c :: rest) = some (items, rest) := by
  unfold specifier?
  split
  case h_11 heq =>
    obtain ⟨rfl, rfl⟩ := List.cons.inj heq
    rw [h]
    rfl
  case h_12 heq => cases heq
  all_goals
    next heq =>
      obtain ⟨rfl, -⟩ := List.cons.inj heq
      cases h

theorem specifier?_eq_some_iff :
    specifier? cs = some (items, rest) ↔ ∃ spec, Plain spec items ∧ cs = spec ++ rest := by
  constructor
  · intro h
    unfold specifier? at h
    split at h
    case h_11 =>
      obtain ⟨found, hfound, heq⟩ := Option.map_eq_some_iff.1 h
      obtain ⟨rfl, rfl⟩ := Prod.mk.inj heq
      exact ⟨[_], .letter hfound, rfl⟩
    case h_12 => cases h
    all_goals obtain ⟨rfl, rfl⟩ := Prod.mk.inj (Option.some.inj h)
    · exact ⟨_, .zoneHours, rfl⟩
    · exact ⟨_, .zoneSeconds, rfl⟩
    · exact ⟨_, .zoneColon, rfl⟩
    · exact ⟨_, .point (c := '3') (by simp), rfl⟩
    · exact ⟨_, .point (c := '6') (by simp), rfl⟩
    · exact ⟨_, .point (c := '9') (by simp), rfl⟩
    · exact ⟨_, .fraction, rfl⟩
    · exact ⟨_, .digits (c := '3') (by simp), rfl⟩
    · exact ⟨_, .digits (c := '6') (by simp), rfl⟩
    · exact ⟨_, .digits (c := '9') (by simp), rfl⟩
  · rintro ⟨spec, hspec, rfl⟩
    cases hspec with
    | letter h => exact specifier?_letter h rest
    | zoneColon | zoneSeconds | zoneHours | fraction => rfl
    | point h | digits h =>
      rcases digits_cases h with ⟨rfl, rfl⟩ | ⟨rfl, rfl⟩ | ⟨rfl, rfl⟩ <;> rfl

/-- A specifier starts with no modifier. -/
theorem Plain.exists_cons (h : Plain spec items) :
    ∃ c tail, spec = c :: tail ∧ c ≠ '#' ∧ pad? c = none := by
  cases h with
  | @letter c items h =>
    refine ⟨c, [], rfl, ?_, ?_⟩
    · rintro rfl
      cases h
    · unfold pad?
      split
      · cases h
      · cases h
      · cases h
      · rfl
  | zoneColon | zoneSeconds | zoneHours | fraction | point => exact ⟨_, _, rfl, by decide, rfl⟩
  | digits h =>
    rcases digits_cases h with ⟨rfl, rfl⟩ | ⟨rfl, rfl⟩ | ⟨rfl, rfl⟩
    all_goals exact ⟨_, _, rfl, by decide, rfl⟩

theorem afterPercent?_cons (ne : c ≠ '#') (cs : List Char) : afterPercent? (c :: cs) =
    match pad? c with
    | none => specifier? (c :: cs)
    | some pad => match specifier? cs with
      | some ([.field f _], rest) => some ([.field f pad], rest)
      | _ => none := by
  unfold afterPercent?
  split
  case h_1 heq => cases heq
  case h_2 heq => exact absurd (List.cons.inj heq).1 ne
  case h_3 heq => exact absurd (List.cons.inj heq).1 ne
  case h_4 heq =>
    obtain ⟨rfl, rfl⟩ := List.cons.inj heq
    rfl

theorem afterPercent?_eq_some_iff : afterPercent? cs = some (items, rest) ↔
    ∃ spec, Specifies spec items ∧ cs = spec ++ rest := by
  constructor
  · intro h
    unfold afterPercent? at h
    split at h
    · cases h
    · obtain ⟨rfl, rfl⟩ := Prod.mk.inj (Option.some.inj h)
      exact ⟨_, .anyZone, rfl⟩
    · cases h
    · split at h
      · obtain ⟨spec, hspec, heq⟩ := specifier?_eq_some_iff.1 h
        exact ⟨spec, .plain hspec, heq⟩
      · next hpad =>
        split at h
        · next hread =>
          obtain ⟨spec, hspec, rfl⟩ := specifier?_eq_some_iff.1 hread
          obtain ⟨rfl, rfl⟩ := Prod.mk.inj (Option.some.inj h)
          exact ⟨_, .padded hpad hspec, rfl⟩
        · cases h
  · rintro ⟨spec, hspec, rfl⟩
    cases hspec with
    | plain h =>
      have hread : specifier? (spec ++ rest) = some (items, rest) :=
        specifier?_eq_some_iff.2 ⟨spec, h, rfl⟩
      obtain ⟨c, tail, rfl, ne, hpad⟩ := h.exists_cons
      rw [List.cons_append, afterPercent?_cons ne, hpad]
      exact hread
    | @padded c pad spec f old hpad h =>
      have ne : c ≠ '#' := by
        rintro rfl
        cases hpad
      rw [List.cons_append, afterPercent?_cons ne, hpad,
        specifier?_eq_some_iff.2 ⟨spec, h, rfl⟩]
    | anyZone => rfl

/-! ## Formats -/

theorem items?_percent (cs : List Char) : items? ('%' :: cs) =
    (afterPercent? cs).bind fun p => (items? p.2).map (p.1 ++ ·) := by
  rw [items?]
  split <;> simp_all

theorem items?_char (ne : c ≠ '%') (cs : List Char) :
    items? (c :: cs) = (items? cs).map (.text [c] :: ·) := by
  rw [items?]
  exact ne

/-- What is read first is read whatever follows. -/
theorem Reads.items?_append (h : Reads before out) (cs : List Char) :
    items? (before ++ cs) = (items? cs).map (out ++ ·) := by
  induction h with
  | nil => simp
  | char ne rest ih =>
    rw [List.cons_append, items?_char ne, ih]
    simp [Function.comp_def]
  | @specifier spec out after items specifies rest ih =>
    have hread : afterPercent? (spec ++ (after ++ cs)) = some (out, after ++ cs) :=
      afterPercent?_eq_some_iff.2 ⟨spec, specifies, rfl⟩
    rw [List.cons_append, List.append_assoc, items?_percent, hread]
    simp [ih, Function.comp_def]

theorem items?_eq_some_iff : items? cs = some items ↔ Reads cs items := by
  constructor
  · intro h
    fun_induction items? cs generalizing items with
    | case1 =>
      obtain rfl := Option.some.inj h
      exact .nil
    | case2 cs hread => cases h
    | case3 cs out rest hread ih =>
      obtain ⟨found, hfound, rfl⟩ := Option.map_eq_some_iff.1 h
      obtain ⟨spec, hspec, rfl⟩ := afterPercent?_eq_some_iff.1 hread
      exact .specifier hspec (ih hfound)
    | case4 c cs ne ih =>
      obtain ⟨found, hfound, rfl⟩ := Option.map_eq_some_iff.1 h
      exact .char ne (ih hfound)
  · intro h
    have hread := h.items?_append []
    rw [List.append_nil, show items? [] = some [] by rw [items?]] at hread
    simpa using hread

/-! ## What cannot be written -/

theorem anyZone_not_mem_letter (h : letter? c = some items) : Item.word .anyZone ∉ items := by
  unfold letter? at h
  split at h
  all_goals
    first
    | (obtain rfl := Option.some.inj h
       decide)
    | cases h

theorem Plain.anyZone_not_mem (h : Plain spec items) : Item.word .anyZone ∉ items := by
  cases h with
  | letter h => exact anyZone_not_mem_letter h
  | zoneColon | zoneSeconds | zoneHours | fraction | point | digits => simp

theorem Specifies.eq_of_anyZone_mem (h : Specifies spec items) (hmem : Item.word .anyZone ∈ items) :
    spec = ['#', 'z'] := by
  cases h with
  | plain h => exact absurd hmem h.anyZone_not_mem
  | padded => simp at hmem
  | anyZone => rfl

theorem Reads.anyZone_mem_iff (h : Reads cs items) :
    Item.word .anyZone ∈ items ↔ HasAnyZone cs := by
  constructor
  · intro hmem
    induction h with
    | nil => simp at hmem
    | @char c cs items ne rest ih =>
      obtain ⟨before, found, after, hbefore, rfl⟩ := ih (by simpa using hmem)
      exact ⟨c :: before, _, after, .char ne hbefore, rfl⟩
    | @specifier spec out cs items specifies rest ih =>
      rcases List.mem_append.1 hmem with hout | hrest
      · obtain rfl := specifies.eq_of_anyZone_mem hout
        exact ⟨[], [], cs, .nil, rfl⟩
      · obtain ⟨before, found, after, hbefore, rfl⟩ := ih hrest
        exact ⟨'%' :: (spec ++ before), _, after, .specifier specifies hbefore, by simp⟩
  · rintro ⟨before, found, after, hbefore, rfl⟩
    have hread := items?_eq_some_iff.2 h
    have hzone : afterPercent? ('#' :: 'z' :: after) = some ([.word .anyZone], after) := rfl
    rw [hbefore.items?_append, items?_percent, hzone] at hread
    obtain ⟨tail, htail, rfl⟩ := Option.map_eq_some_iff.1 hread
    obtain ⟨last, -, rfl⟩ := Option.map_eq_some_iff.1 htail
    simp

end Format

/-! ## What a format shows -/

variable {t : Time} {items more : List Item} {cs out shown : List Char}

theorem Item.text?_eq_none_iff {item : Item} : item.text? t = none ↔ item = .word .anyZone := by
  cases item with
  | text | field => simp [Item.text?]
  | word w => cases w <;> simp [Item.text?, wordText?]

theorem write?_cons (t : Time) (item : Item) (items : List Item) : write? t (item :: items) =
    (item.text? t).bind fun cs => (write? t items).map (cs ++ ·) := by
  rw [write?]
  cases item.text? t with
  | none => rfl
  | some cs => cases write? t items <;> rfl

theorem write?_append (t : Time) (items more : List Item) : write? t (items ++ more) =
    (write? t items).bind fun cs => (write? t more).map (cs ++ ·) := by
  induction items with
  | nil => simp [write?]
  | cons item items ih =>
    rw [List.cons_append, write?_cons, write?_cons, ih]
    cases item.text? t with
    | none => rfl
    | some cs =>
      cases write? t items with
      | none => rfl
      | some ds => cases write? t more <;> simp

/-- Items can be written unless one of them is a zone in any form. -/
theorem exists_write?_iff : (∃ out, write? t items = some out) ↔ Item.word .anyZone ∉ items := by
  induction items with
  | nil => simp [write?]
  | cons item items ih =>
    rw [write?_cons, List.mem_cons, not_or, ← ih, ← ne_eq, ne_comm, ne_eq,
      ← Item.text?_eq_none_iff (t := t)]
    cases item.text? t with
    | none => simp
    | some cs =>
      constructor
      · rintro ⟨out, hout⟩
        obtain ⟨found, hfound, -⟩ := Option.map_eq_some_iff.1 hout
        exact ⟨by simp, found, hfound⟩
      · rintro ⟨-, found, hfound⟩
        exact ⟨cs ++ found, by simp [hfound]⟩

namespace Format

/-- The text that a format shows of a time: characters as they are, and what is written for each
specifier. -/
inductive Shows (t : Time) : List Char → List Char → Prop
  | nil : Shows t [] []
  | char {c cs out} (ne : c ≠ '%') (rest : Shows t cs out) : Shows t (c :: cs) (c :: out)
  | specifier {spec items shown cs out} (specifies : Specifies spec items)
      (writes : write? t items = some shown) (rest : Shows t cs out) :
      Shows t ('%' :: (spec ++ cs)) (shown ++ out)

theorem shows_iff : Shows t cs out ↔ ∃ items, Reads cs items ∧ write? t items = some out := by
  constructor
  · intro h
    induction h with
    | nil => exact ⟨[], .nil, rfl⟩
    | char ne rest ih =>
      obtain ⟨items, hread, hwrite⟩ := ih
      exact ⟨_, .char ne hread, by simp [write?_cons, Item.text?, hwrite]⟩
    | specifier specifies writes rest ih =>
      obtain ⟨items, hread, hwrite⟩ := ih
      exact ⟨_, .specifier specifies hread, by simp [write?_append, writes, hwrite]⟩
  · rintro ⟨items, hread, hwrite⟩
    induction hread generalizing out with
    | nil =>
      obtain rfl := Option.some.inj hwrite
      exact .nil
    | char ne rest ih =>
      rw [write?_cons] at hwrite
      obtain ⟨found, hfound, rfl⟩ := Option.map_eq_some_iff.1 hwrite
      exact .char ne (ih hfound)
    | specifier specifies rest ih =>
      rw [write?_append] at hwrite
      obtain ⟨shown, hshown, htail⟩ := Option.bind_eq_some_iff.1 hwrite
      obtain ⟨found, hfound, rfl⟩ := Option.map_eq_some_iff.1 htail
      exact .specifier specifies hshown (ih hfound)

theorem Reads.unique (h : Reads cs items) (k : Reads cs more) : items = more :=
  Option.some.inj (by rw [← items?_eq_some_iff.2 h, ← items?_eq_some_iff.2 k])

/-- A well-formed format shows something of a time iff the specifier for a zone in any form does not
stand in it. -/
theorem Reads.exists_shows_iff (h : Reads cs items) (t : Time) :
    (∃ out, Shows t cs out) ↔ ¬ HasAnyZone cs := by
  rw [← h.anyZone_mem_iff, ← exists_write?_iff (t := t)]
  constructor
  · rintro ⟨out, hout⟩
    obtain ⟨found, hfound, hwrite⟩ := shows_iff.1 hout
    obtain rfl := hfound.unique h
    exact ⟨out, hwrite⟩
  · rintro ⟨out, hwrite⟩
    exact ⟨out, shows_iff.2 ⟨items, h, hwrite⟩⟩

theorem isFormat_iff {s : String} : isFormat s = true ↔ ∃ items, Reads s.toList items := by
  simp only [isFormat, Option.isSome_iff_exists, items?_eq_some_iff]

end Format
end HubConsole.Clock
