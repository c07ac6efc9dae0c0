import HubConsole.Proofs.Style
import Mathlib.Data.List.Sort

/-! # Lists of colors

A text reads as a style iff all names in it are names of colors and attributes and at most two of
them are colors (`parse_eq_ok_iff`). Colors count by their order and attributes as a set, so names
of attributes may be moved, repeated and put in any order (`parse_congr`). The text of a style is
the normal form of all texts that read as it (`reads_names`). -/

namespace HubConsole

theorem Attribute.name_inj {a b : Attribute} (h : a.name = b.name) : a = b :=
  Option.some.inj (by rw [← ofName?_name a, ← ofName?_name b, h])

theorem Attribute.mem_all (a : Attribute) : a ∈ all := by cases a <;> decide

namespace Style
open Text Result

/-- The names between the commas of a text. -/
def namesIn (t : String) : List String := (t.toList.splitOn ',').map nameOf

/-- The names in a text that are no names of attributes. -/
def othersIn (t : String) : List String :=
  (namesIn t).filter fun name => (Attribute.ofName? name).isNone

/-- A text names the colors and attributes of a style. -/
structure Lists (t : String) (s : Style) : Prop where
  known : ∀ name ∈ namesIn t, IsName name
  few : (colorsOf (namesIn t)).length ≤ 2
  foreground : s.foreground = (colorsOf (namesIn t)).getD 0 .default
  background : s.background = (colorsOf (namesIn t)).getD 1 .default
  sorted : (s.attributes.map Attribute.name).Pairwise (· < ·)
  attributes : ∀ a : Attribute, a ∈ s.attributes ↔ a.name ∈ namesIn t

namespace Listed
variable {l m : Listed} {v w : List Char} {vs ws : List (List Char)} {a : Attribute}

theorem mem_style_iff : a ∈ l.style.attributes ↔ a ∈ l.attributes := by
  simp [style, Attribute.mem_all]

theorem sorted_style (l : Listed) : (l.style.attributes.map Attribute.name).Pairwise (· < ·) := by
  have hall : Attribute.all.Pairwise fun a b => a.name < b.name := by decide
  exact List.pairwise_map.2 (hall.filter _)

theorem style_congr (hcolors : l.colors = m.colors)
    (hattributes : ∀ a, a ∈ l.attributes ↔ a ∈ m.attributes) : l.style = m.style := by
  unfold style
  rw [hcolors]
  congr 1
  refine List.filter_congr fun a _ => ?_
  simp [hattributes a]

theorem add_congr (h : nameOf v = nameOf w) : l.add v = l.add w := by
  unfold nameOf at h
  unfold add
  rw [h]

theorem addAll_congr (h : vs.map nameOf = ws.map nameOf) : l.addAll vs = l.addAll ws := by
  induction vs generalizing l ws with
  | nil =>
    rw [List.map_nil, eq_comm, List.map_eq_nil_iff] at h
    rw [h]
  | cons v vs ih =>
    cases ws with
    | nil => simp at h
    | cons w ws =>
      obtain ⟨hname, hrest⟩ := List.cons.inj h
      rw [addAll, addAll, add_congr hname]
      simp only [ih hrest]

/-- Attributes do not matter to the colors that are listed, nor to what is refused. -/
theorem colors_addAll (h : l.colors = m.colors) : colors <$> l.addAll ws =
    colors <$> m.addAll (ws.filter fun w => (Attribute.ofName? (nameOf w)).isNone) := by
  induction ws generalizing l m with
  | nil =>
    show Except.ok l.colors = Except.ok m.colors
    rw [h]
  | cons w ws ih =>
    by_cases hname : IsName (nameOf w)
    · rcases id hname with ⟨c, hc⟩ | ⟨a, ha⟩
      · rw [List.filter_cons_of_pos (by simp [← hc, ofName?_color])]
        rcases Nat.lt_or_ge l.colors.length 2 with hroom | hfull
        · rw [addAll_cons (add_color hc.symm hroom), addAll_cons (add_color hc.symm (h ▸ hroom))]
          exact ih (by simp [h])
        · rw [addAll_cons_error (add_color_of_full hc.symm hfull),
            addAll_cons_error (add_color_of_full hc.symm (h ▸ hfull))]
      · rw [List.filter_cons_of_neg (by simp [← ha, Attribute.ofName?_name]),
          addAll_cons (add_attribute ha.symm)]
        exact ih h
    · have hnone : Attribute.ofName? (nameOf w) = none := by
        refine Option.eq_none_iff_forall_ne_some.2 fun a ha => ?_
        exact hname (.inr ⟨a, Attribute.ofName?_eq_some_iff.1 ha⟩)
      rw [List.filter_cons_of_pos (by simp [hnone]), addAll_cons_error (add_other hname),
        addAll_cons_error (add_other hname)]

end Listed

variable {s r : Style} {t u : String}

theorem namesIn_eq (t : String) : namesIn t = (pieces (· == ',') t.toList).map nameOf := by
  rw [pieces_eq_splitOnP]
  rfl

/-- What is listed in a text. -/
def Listed.ofText (t : String) : Except Error Listed :=
  addAll ⟨[], []⟩ (pieces (· == ',') t.toList)

theorem parse_eq (t : String) : parse t = Listed.style <$> Listed.ofText t := by
  unfold parse Listed.ofText
  cases Listed.addAll ⟨[], []⟩ (pieces (· == ',') t.toList) <;> rfl

theorem Listed.ofText_eq_ok_iff {l : Listed} : ofText t = .ok l ↔
    (∀ name ∈ namesIn t, IsName name) ∧ (colorsOf (namesIn t)).length ≤ 2 ∧
      l = ⟨colorsOf (namesIn t), attributesOf (namesIn t)⟩ := by
  have hstart : (⟨[], []⟩ : Listed).colors.length ≤ 2 := Nat.zero_le 2
  rw [ofText, addAll_eq_ok_iff hstart, ← namesIn_eq, List.nil_append, List.nil_append, namesIn_eq,
    List.forall_mem_map]

/-- Attributes do not matter to what is refused. -/
theorem Listed.colors_ofText (others : othersIn t = othersIn u) :
    colors <$> ofText t = colors <$> ofText u := by
  have hnames : ∀ t, ((pieces (· == ',') t.toList).filter fun w =>
      (Attribute.ofName? (nameOf w)).isNone).map nameOf = othersIn t := by
    intro t
    rw [othersIn, namesIn_eq, List.filter_map]
    rfl
  have hfiltered : ∀ t, colors <$> ofText t = colors <$> addAll ⟨[], []⟩
      ((pieces (· == ',') t.toList).filter fun w => (Attribute.ofName? (nameOf w)).isNone) :=
    fun t => colors_addAll rfl
  rw [hfiltered t, hfiltered u]
  exact congrArg _ (addAll_congr (by rw [hnames, hnames, others]))

theorem Lists.unique (h : Lists t s) (k : Lists t r) : s = r := by
  have hattributes : s.attributes = r.attributes := by
    refine (List.map_injective_iff.2 fun a b => Attribute.name_inj) ?_
    refine h.sorted.eq_of_mem_iff k.sorted fun name => ?_
    simp only [List.mem_map, h.attributes, k.attributes]
  obtain ⟨foreground, background, attributes⟩ := s
  obtain rfl : foreground = r.foreground := h.foreground.trans k.foreground.symm
  obtain rfl : background = r.background := h.background.trans k.background.symm
  obtain rfl : attributes = r.attributes := hattributes
  rfl

theorem lists_style (known : ∀ name ∈ namesIn t, IsName name)
    (few : (colorsOf (namesIn t)).length ≤ 2) :
    Lists t (Listed.style ⟨colorsOf (namesIn t), attributesOf (namesIn t)⟩) where
  known := known
  few := few
  foreground := rfl
  background := rfl
  sorted := Listed.sorted_style _
  attributes a := by rw [Listed.mem_style_iff, mem_attributesOf_iff]

theorem parse_eq_ok_iff : parse t = .ok s ↔ Lists t s := by
  simp only [parse_eq, map_eq_ok_iff, Listed.ofText_eq_ok_iff]
  constructor
  · rintro ⟨l, ⟨known, few, rfl⟩, rfl⟩
    exact lists_style known few
  · intro h
    exact ⟨_, ⟨h.known, h.few, rfl⟩, (lists_style h.known h.few).unique h⟩

theorem exists_parse_iff : (∃ s, parse t = .ok s) ↔
    (∀ name ∈ namesIn t, IsName name) ∧ (colorsOf (namesIn t)).length ≤ 2 := by
  constructor
  · rintro ⟨s, hs⟩
    have h := parse_eq_ok_iff.1 hs
    exact ⟨h.known, h.few⟩
  · rintro ⟨known, few⟩
    exact ⟨_, parse_eq_ok_iff.2 (lists_style known few)⟩

/-- It only matters which names of attributes there are. -/
theorem parse_congr (others : othersIn t = othersIn u)
    (attributes : ∀ a : Attribute, a.name ∈ namesIn t ↔ a.name ∈ namesIn u) :
    parse t = parse u := by
  have hcolors := Listed.colors_ofText others
  rw [parse_eq, parse_eq]
  cases ht : Listed.ofText t with
  | error e =>
    cases hu : Listed.ofText u with
    | error f =>
      rw [ht, hu] at hcolors
      exact congrArg Except.error (Except.error.inj hcolors)
    | ok m =>
      rw [ht, hu] at hcolors
      cases hcolors
  | ok l =>
    cases hu : Listed.ofText u with
    | error f =>
      rw [ht, hu] at hcolors
      cases hcolors
    | ok m =>
      rw [ht, hu] at hcolors
      obtain ⟨-, -, hl⟩ := Listed.ofText_eq_ok_iff.1 ht
      obtain ⟨-, -, hm⟩ := Listed.ofText_eq_ok_iff.1 hu
      refine congrArg Except.ok (Listed.style_congr (Except.ok.inj hcolors) fun a => ?_)
      rw [hl, hm]
      show a ∈ attributesOf (namesIn t) ↔ a ∈ attributesOf (namesIn u)
      rw [mem_attributesOf_iff, mem_attributesOf_iff]
      exact attributes a

/-- A text reads as a style iff it names only colors and attributes, and at most two colors: the
first one in front, the second one behind, and the attributes in the order of their names. So names
of attributes may stand anywhere, also more than once, and the text of a style stands for all texts
that read as it. -/
theorem reads_names (t u : String) :
    ((∃ s, parse t = .ok s) ↔
      (∀ name ∈ namesIn t, IsName name) ∧ (colorsOf (namesIn t)).length ≤ 2) ∧
    (∀ s, parse t = .ok s ↔ Lists t s) ∧
    (othersIn t = othersIn u → (∀ a : Attribute, a.name ∈ namesIn t ↔ a.name ∈ namesIn u) →
      parse t = parse u) ∧
    (∀ s r, parse t = .ok s → parse u = .ok r → (s = r ↔ s.text = r.text)) ∧
    ∀ s, parse t = .ok s → parse s.text = .ok s := by
  have hself : ∀ {t s}, parse t = .ok s → parse s.text = .ok s := fun h =>
    parse_text (ordered_of_parse h)
  refine ⟨exists_parse_iff, fun s => parse_eq_ok_iff, parse_congr, fun s r hs hr => ?_,
    fun s hs => hself hs⟩
  constructor
  · exact congrArg text
  · intro htext
    have hs := hself hs
    rw [htext, hself hr] at hs
    exact (Except.ok.inj hs).symm

example : parse "underline, Red,bold,BLUE,bold" = .ok ⟨.red, .blue, [.bold, .underline]⟩ := by rfl

end Style
end HubConsole
