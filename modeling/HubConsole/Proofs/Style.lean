import HubConsole.Color
import HubConsole.Proofs.Result
import HubConsole.Proofs.Trim

/-! # The text of a style

A style that was read is written as a list of names that reads back as the style (`parse_text`). -/

namespace HubConsole
open Text Result

namespace Text

theorem toList_comma (s t : String) : (s ++ "," ++ t).toList = s.toList ++ ',' :: t.toList := by
  simp

/-- Texts without commas that are joined by commas come apart again. -/
theorem pieces_joinWith {names : List String} (hne : names ≠ [])
    (h : ∀ n ∈ names, ',' ∉ n.toList) :
    pieces (· == ',') (joinWith "," names).toList = names.map String.toList := by
  induction names with
  | nil => exact absurd rfl hne
  | cons n names ih =>
    have hn := h n List.mem_cons_self
    cases names with
    | nil => simpa [joinWith] using pieces_of_not_mem hn
    | cons m names =>
      have hrest := ih (by simp) fun k hk => h k (List.mem_cons_of_mem _ hk)
      have hjoin : (joinWith "," (n :: m :: names)).toList =
          n.toList ++ ',' :: (joinWith "," (m :: names)).toList :=
        toList_comma n _
      rw [hjoin, pieces_append hn, hrest]
      rfl

theorem mem_joinWith {names : List String} {c : Char} (h : c ∈ (joinWith "," names).toList) :
    c = ',' ∨ ∃ n ∈ names, c ∈ n.toList := by
  induction names with
  | nil => simp [joinWith] at h
  | cons n names ih =>
    cases names with
    | nil => exact .inr ⟨n, by simp, h⟩
    | cons m names =>
      simp only [joinWith, String.toList_append, List.mem_append] at h
      rcases h with (h | h) | h
      · exact .inr ⟨n, by simp, h⟩
      · exact .inl (by simpa using h)
      · rcases ih h with hcomma | ⟨k, hk, hc⟩
        · exact .inl hcomma
        · exact .inr ⟨k, List.mem_cons_of_mem _ hk, hc⟩

end Text

namespace Style

/-- The attributes stand in the order in which they are written, each one once. -/
def Ordered (s : Style) : Prop :=
  s.attributes = Attribute.all.filter fun a => s.attributes.contains a

theorem ordered_style (l : Listed) : l.style.Ordered := by
  unfold Ordered Listed.style
  refine List.filter_congr fun a ha => ?_
  simp [ha]

theorem ordered_of_parse {t : String} {s : Style} (h : parse t = .ok s) : s.Ordered := by
  unfold parse at h
  simp only [bind_eq_ok_iff, pure_eq_ok_iff] at h
  obtain ⟨l, -, rfl⟩ := h
  exact ordered_style l

/-! ## Names that are read -/

/-- The name that a word stands for: letter case and the blanks around it do not count. -/
def nameOf (word : List Char) : String := .ofList ((trim word).map lowerAscii)

/-- Whether a name is that of a color or an attribute. -/
def IsName (name : String) : Prop :=
  (∃ c : Color, c.name = name) ∨ ∃ a : Attribute, a.name = name

/-- The colors among names, in their order. -/
def colorsOf (names : List String) : List Color := names.filterMap Color.ofName?

/-- The attributes among names, in their order. -/
def attributesOf (names : List String) : List Attribute := names.filterMap Attribute.ofName?

section
variable {names : List String} {a : Attribute} {c : Color}

theorem nameOf_color (c : Color) : nameOf c.name.toList = c.name := by cases c <;> decide

theorem nameOf_attribute (a : Attribute) : nameOf a.name.toList = a.name := by cases a <;> decide

theorem ofName?_color (c : Color) : Attribute.ofName? c.name = none := by cases c <;> decide

theorem ofName?_attribute (a : Attribute) : Color.ofName? a.name = none := by cases a <;> decide

theorem colorsOf_color (c : Color) (names : List String) :
    colorsOf (c.name :: names) = c :: colorsOf names := by
  simp [colorsOf, Color.ofName?_name]

theorem colorsOf_attribute (a : Attribute) (names : List String) :
    colorsOf (a.name :: names) = colorsOf names := by
  simp [colorsOf, ofName?_attribute]

theorem attributesOf_color (c : Color) (names : List String) :
    attributesOf (c.name :: names) = attributesOf names := by
  simp [attributesOf, ofName?_color]

theorem attributesOf_attribute (a : Attribute) (names : List String) :
    attributesOf (a.name :: names) = a :: attributesOf names := by
  simp [attributesOf, Attribute.ofName?_name]

theorem mem_attributesOf_iff : a ∈ attributesOf names ↔ a.name ∈ names := by
  simp [attributesOf, Attribute.ofName?_eq_some_iff]

theorem colorsOf_append (names more : List String) :
    colorsOf (names ++ more) = colorsOf names ++ colorsOf more :=
  List.filterMap_append

theorem attributesOf_append (names more : List String) :
    attributesOf (names ++ more) = attributesOf names ++ attributesOf more :=
  List.filterMap_append

theorem colorsOf_map_name (cs : List Color) : colorsOf (cs.map Color.name) = cs := by
  induction cs with
  | nil => rfl
  | cons c cs ih => rw [List.map_cons, colorsOf_color, ih]

theorem colorsOf_map_attribute (as : List Attribute) : colorsOf (as.map Attribute.name) = [] := by
  induction as with
  | nil => rfl
  | cons a as ih => rw [List.map_cons, colorsOf_attribute, ih]

theorem attributesOf_map_name (as : List Attribute) :
    attributesOf (as.map Attribute.name) = as := by
  induction as with
  | nil => rfl
  | cons a as ih => rw [List.map_cons, attributesOf_attribute, ih]

theorem attributesOf_map_color (cs : List Color) : attributesOf (cs.map Color.name) = [] := by
  induction cs with
  | nil => rfl
  | cons c cs ih => rw [List.map_cons, attributesOf_color, ih]

end

namespace IsName
variable {name : String}

/-- A name is its own canonical form. -/
theorem nameOf (h : IsName name) : nameOf name.toList = name := by
  rcases h with ⟨c, rfl⟩ | ⟨a, rfl⟩
  · exact nameOf_color c
  · exact nameOf_attribute a

theorem isLower (h : IsName name) : ∀ c ∈ name.toList, c.isLower = true := by
  rw [← List.all_eq_true]
  rcases h with ⟨c, rfl⟩ | ⟨a, rfl⟩
  · cases c <;> decide
  · cases a <;> decide

end IsName

namespace Listed
variable {l m : Listed} {word : List Char} {words : List (List Char)} {a : Attribute} {c : Color}

theorem add_color (hname : nameOf word = c.name) (hroom : l.colors.length < 2) :
    l.add word = .ok { l with colors := l.colors ++ [c] } := by
  have hne : (c.name == "") = false := by cases c <;> decide
  unfold nameOf at hname
  simp [add, hname, hne, Color.ofName?_name, hroom, pure, Except.pure]

theorem add_color_of_full (hname : nameOf word = c.name) (hfull : 2 ≤ l.colors.length) :
    l.add word = .error .tooManyColors := by
  have hne : (c.name == "") = false := by cases c <;> decide
  have hroom : ¬ l.colors.length < 2 := by omega
  unfold nameOf at hname
  simp [add, hname, hne, Color.ofName?_name, hroom, throw, throwThe, MonadExceptOf.throw]

theorem add_attribute (hname : nameOf word = a.name) :
    l.add word = .ok { l with attributes := l.attributes ++ [a] } := by
  have hne : (a.name == "") = false := by cases a <;> decide
  unfold nameOf at hname
  simp [add, hname, hne, ofName?_attribute, Attribute.ofName?_name, pure, Except.pure]

/-- What is no name is refused, whatever is listed before. -/
theorem add_other (hname : ¬ IsName (nameOf word)) : l.add word =
    .error (if nameOf word = "" then .emptyName else .unknownName (nameOf word)) := by
  have hcolor : Color.ofName? (nameOf word) = none :=
    Option.eq_none_iff_forall_ne_some.2 fun c hc =>
      hname (.inl ⟨c, Color.ofName?_eq_some_iff.1 hc⟩)
  have hattribute : Attribute.ofName? (nameOf word) = none :=
    Option.eq_none_iff_forall_ne_some.2 fun a ha =>
      hname (.inr ⟨a, Attribute.ofName?_eq_some_iff.1 ha⟩)
  unfold nameOf at hcolor hattribute ⊢
  simp only [add, beq_iff_eq]
  split
  · rfl
  · simp [hcolor, hattribute, throw, throwThe, MonadExceptOf.throw]

theorem addAll_cons (h : l.add word = .ok m) : l.addAll (word :: words) = m.addAll words := by
  rw [addAll, h]
  rfl

theorem addAll_cons_error {e : Error} (h : l.add word = .error e) :
    l.addAll (word :: words) = .error e := by
  rw [addAll, h]
  rfl

theorem addAll_append (h : l.addAll words = .ok m) (more : List (List Char)) :
    l.addAll (words ++ more) = m.addAll more := by
  induction words generalizing l with
  | nil =>
    obtain rfl := pure_eq_ok_iff.1 h
    rfl
  | cons word words ih =>
    obtain ⟨k, hk, hrest⟩ := bind_eq_ok_iff.1 h
    rw [List.cons_append, addAll_cons hk, ih hrest]

/-- What is listed is listed with what came before: all words are names, of which at most two are
colors. -/
theorem addAll_eq_ok_iff (h : l.colors.length ≤ 2) : l.addAll words = .ok m ↔
    (∀ word ∈ words, IsName (nameOf word)) ∧
      (l.colors ++ colorsOf (words.map nameOf)).length ≤ 2 ∧
      m = ⟨l.colors ++ colorsOf (words.map nameOf),
        l.attributes ++ attributesOf (words.map nameOf)⟩ := by
  induction words generalizing l with
  | nil => simp [addAll, colorsOf, attributesOf, h, pure, Except.pure, eq_comm]
  | cons word words ih =>
    rw [List.map_cons, List.forall_mem_cons]
    by_cases hname : IsName (nameOf word)
    · rcases id hname with ⟨c, hc⟩ | ⟨a, ha⟩
      · rw [← hc, colorsOf_color, attributesOf_color]
        rcases Nat.lt_or_ge l.colors.length 2 with hroom | hfull
        · rw [addAll_cons (add_color hc.symm hroom), ih (by simp; omega)]
          simp [IsName]
        · rw [addAll_cons_error (add_color_of_full hc.symm hfull)]
          simp
          omega
      · rw [← ha, colorsOf_attribute, attributesOf_attribute,
          addAll_cons (add_attribute ha.symm), ih (by exact h)]
        simp [IsName]
    · rw [addAll_cons_error (add_other hname)]
      simp [hname]

end Listed

/-- A style is written with up to two colors, which are its own, and its attributes. -/
theorem names_eq (s : Style) : ∃ cs : List Color, cs.length ≤ 2 ∧
    cs.getD 0 .default = s.foreground ∧ cs.getD 1 .default = s.background ∧ s.names ≠ [] ∧
    s.names = cs.map Color.name ++ s.attributes.map Attribute.name := by
  by_cases hback : s.background = .default
  · by_cases hfore : s.foreground = .default
    · cases hattr : s.attributes with
      | nil => exact ⟨[.default], by simp [names, hback, hfore, hattr, Color.name]⟩
      | cons a as => exact ⟨[], by simp [names, hback, hfore, hattr]⟩
    · exact ⟨[s.foreground], by simp [names, hback, hfore]⟩
  · exact ⟨[s.foreground, s.background], by simp [names, hback]⟩

theorem isName_of_mem_names {s : Style} {n : String} (h : n ∈ s.names) : IsName n := by
  obtain ⟨cs, -, -, -, -, hnames⟩ := s.names_eq
  rw [hnames, List.mem_append, List.mem_map, List.mem_map] at h
  rcases h with ⟨c, -, rfl⟩ | ⟨a, -, rfl⟩
  · exact .inl ⟨c, rfl⟩
  · exact .inr ⟨a, rfl⟩

/-- The text of a style reads back as the style. -/
theorem parse_text {s : Style} (h : s.Ordered) : parse s.text = .ok s := by
  obtain ⟨cs, hlen, hfore, hback, hne, hnames⟩ := s.names_eq
  have hpieces : pieces (· == ',') s.text.toList = s.names.map String.toList :=
    pieces_joinWith hne fun n hn hc =>
      absurd ((isName_of_mem_names hn).isLower _ hc) (by decide)
  have hread : (s.names.map String.toList).map nameOf = s.names := by
    rw [List.map_map]
    exact (List.map_congr_left fun n hn => (isName_of_mem_names hn).nameOf).trans (List.map_id _)
  have hcolors : colorsOf s.names = cs := by
    rw [hnames, colorsOf_append, colorsOf_map_name, colorsOf_map_attribute, List.append_nil]
  have hattributes : attributesOf s.names = s.attributes := by
    rw [hnames, attributesOf_append, attributesOf_map_color, attributesOf_map_name,
      List.nil_append]
  have hall : Listed.addAll ⟨[], []⟩ (s.names.map String.toList) = .ok ⟨cs, s.attributes⟩ := by
    rw [Listed.addAll_eq_ok_iff (by simp), hread, hcolors, hattributes]
    refine ⟨fun word hword => ?_, hlen, rfl⟩
    obtain ⟨n, hn, rfl⟩ := List.mem_map.1 hword
    rw [(isName_of_mem_names hn).nameOf]
    exact isName_of_mem_names hn
  have hstyle : Listed.style ⟨cs, s.attributes⟩ = s := by
    unfold Listed.style
    rw [hfore, hback, ← h]
  unfold parse
  rw [hpieces, hall]
  exact congrArg Except.ok hstyle

theorem isTrimmed_text {s : Style} (h : s.Ordered) : IsTrimmed s.text := by
  refine ⟨trim_eq_self_of_forall fun c hc => ?_, fun hempty => ?_⟩
  · rcases mem_joinWith hc with rfl | ⟨n, hn, hc⟩
    · decide
    · have halpha : (c.isUpper || c.isLower) = true := by
        rw [(isName_of_mem_names hn).isLower c hc, Bool.or_true]
      exact isBlank_of_isAlpha halpha
  · -- no style is read from an empty text
    have hread : parse "" = .error .emptyName := by rfl
    have hself := parse_text h
    rw [hempty, hread] at hself
    cases hself

end Style
end HubConsole
