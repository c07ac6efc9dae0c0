import HubConsole.Query
import HubConsole.Proofs.Result
import Mathlib.Data.List.Basic

/-! # The items of a search

The words of a search are read as items: terms, scopes, options with their operands, and words that
are none of these (`Query.Reads`). Each list of words is read in exactly one way, and the query
depends on the items alone: the leftmost item with a fault is the error, and without a fault each
part of the query is what the last item says that speaks of it (`Query.Reads.readFrom_eq`). -/

namespace HubConsole
open Text Result

/-- The word that selects the hubs of a search. -/
def SearchScope.flag : SearchScope → String
  | currentHub => "-hub"
  | allHubs => "-all"

namespace Query

/-- The options that take an operand. -/
inductive Flag where
  | atMost
  | atLeast
  | fileType
  | content
deriving DecidableEq, Repr

def Flag.text : Flag → String
  | atMost => "-le"
  | atLeast => "-ge"
  | fileType => "-t"
  | content => "-tth"

/-- What one or two words of a search stand for. An option lacks its operand only at the end. -/
inductive Item where
  | term (word : String)
  | scope (scope : SearchScope)
  | option (flag : Flag) (operand : Option String)
  | unknown (word : String)
deriving DecidableEq, Repr

/-- The items that words are read as, from left to right. -/
inductive Reads : List String → List Item → Prop
  | nil : Reads [] []
  | terms (words : List String) : Reads ("--" :: words) (words.map .term)
  | term {word : String} {words : List String} {items : List Item}
      (h : word.toList.head? ≠ some '-') (rest : Reads words items) :
      Reads (word :: words) (.term word :: items)
  | scope (scope : SearchScope) {words : List String} {items : List Item}
      (rest : Reads words items) : Reads (scope.flag :: words) (.scope scope :: items)
  | option (flag : Flag) (operand : String) {words : List String} {items : List Item}
      (rest : Reads words items) :
      Reads (flag.text :: operand :: words) (.option flag (some operand) :: items)
  | missing (flag : Flag) : Reads [flag.text] [.option flag none]
  | unknown {word : String} {words : List String} {items : List Item}
      (h : word.toList.head? = some '-') (hterms : word ≠ "--")
      (hscope : ∀ s, word ≠ SearchScope.flag s)
      (hoption : ∀ f, word ≠ Flag.text f) (rest : Reads words items) :
      Reads (word :: words) (.unknown word :: items)

/-! ### Each list of words is read in one way -/

@[simp] theorem head?_flag (s : SearchScope) : s.flag.toList.head? = some '-' := by
  cases s <;> decide

@[simp] theorem Flag.head?_text (f : Flag) : f.text.toList.head? = some '-' := by
  cases f <;> decide

theorem flag_inj {s t : SearchScope} : s.flag = t.flag ↔ s = t := by
  cases s <;> cases t <;> decide

theorem Flag.text_inj {f g : Flag} : f.text = g.text ↔ f = g := by
  cases f <;> cases g <;> decide

@[simp] theorem flag_ne_text (s : SearchScope) (f : Flag) : s.flag ≠ f.text := by
  cases s <;> cases f <;> decide

@[simp] theorem flag_ne_dashes (s : SearchScope) : s.flag ≠ "--" := by
  cases s <;> decide

@[simp] theorem Flag.text_ne_dashes (f : Flag) : f.text ≠ "--" := by
  cases f <;> decide

/-- What a word can be, by how it begins and by the known flags. -/
theorem word_cases (word : String) : word.toList.head? ≠ some '-' ∨ word = "--" ∨
    (∃ s : SearchScope, word = s.flag) ∨ (∃ f : Flag, word = f.text) ∨
    (word.toList.head? = some '-' ∧ word ≠ "--" ∧ (∀ s, word ≠ SearchScope.flag s) ∧
      ∀ f, word ≠ Flag.text f) := by
  by_cases hdash : word.toList.head? = some '-'
  · by_cases hterms : word = "--"
    · exact .inr (.inl hterms)
    by_cases hscope : ∃ s : SearchScope, word = s.flag
    · exact .inr (.inr (.inl hscope))
    by_cases hoption : ∃ f : Flag, word = f.text
    · exact .inr (.inr (.inr (.inl hoption)))
    · exact .inr (.inr (.inr (.inr ⟨hdash, hterms, not_exists.1 hscope, not_exists.1 hoption⟩)))
  · exact .inl hdash

theorem exists_reads (words : List String) : ∃ items, Reads words items := by
  match words with
  | [] => exact ⟨[], .nil⟩
  | word :: words =>
    obtain ⟨items, hitems⟩ := exists_reads words
    rcases word_cases word with h | rfl | ⟨s, rfl⟩ | ⟨f, rfl⟩ | ⟨hdash, hterms, hscope, hoption⟩
    · exact ⟨_, .term h hitems⟩
    · exact ⟨_, .terms words⟩
    · exact ⟨_, .scope s hitems⟩
    · match words with
      | [] => exact ⟨_, .missing f⟩
      | operand :: words =>
        obtain ⟨items, hitems⟩ := exists_reads words
        exact ⟨_, .option f operand hitems⟩
    · exact ⟨_, .unknown hdash hterms hscope hoption hitems⟩

theorem Reads.unique {words : List String} {items others : List Item} (h : Reads words items)
    (h' : Reads words others) : others = items := by
  induction h generalizing others with
  | nil => cases h'; rfl
  | terms words =>
    generalize hw : "--" = word at h'
    cases h' with
    | terms => rfl
    | term hne => subst hw; simp at hne
    | scope s => exact absurd hw.symm (flag_ne_dashes s)
    | option f => exact absurd hw.symm f.text_ne_dashes
    | missing f => exact absurd hw.symm f.text_ne_dashes
    | unknown _ hterms => exact absurd hw.symm hterms
  | @term word words items hne _ ih =>
    cases h' with
    | terms => simp at hne
    | term _ rest => rw [ih rest]
    | scope s => exact absurd (head?_flag s) hne
    | option f => exact absurd f.head?_text hne
    | missing f => exact absurd f.head?_text hne
    | unknown hdash => exact absurd hdash hne
  | @scope s words items _ ih =>
    generalize hw : s.flag = word at h'
    cases h' with
    | terms => exact absurd hw (flag_ne_dashes s)
    | term hne => exact absurd (hw ▸ head?_flag s) hne
    | scope t rest => rw [ih rest, flag_inj.1 hw]
    | option f => exact absurd hw (flag_ne_text s f)
    | missing f => exact absurd hw (flag_ne_text s f)
    | unknown _ _ hscope => exact absurd hw.symm (hscope s)
  | @option f operand words items _ ih =>
    generalize hw : f.text = word at h'
    cases h' with
    | terms => exact absurd hw f.text_ne_dashes
    | term hne => exact absurd (hw ▸ f.head?_text) hne
    | scope s => exact absurd hw.symm (flag_ne_text s f)
    | option g _ rest => rw [ih rest, Flag.text_inj.1 hw]
    | unknown _ _ _ hoption => exact absurd hw.symm (hoption f)
  | missing f =>
    generalize hw : f.text = word at h'
    cases h' with
    | terms => exact absurd hw f.text_ne_dashes
    | term hne => exact absurd (hw ▸ f.head?_text) hne
    | scope s => exact absurd hw.symm (flag_ne_text s f)
    | missing g => rw [Flag.text_inj.1 hw]
    | unknown _ _ _ hoption => exact absurd hw.symm (hoption f)
  | @unknown word words items hdash hterms hscope hoption _ ih =>
    cases h' with
    | terms => exact absurd rfl hterms
    | term hne => exact absurd hdash hne
    | scope s => exact absurd rfl (hscope s)
    | option f => exact absurd rfl (hoption f)
    | missing f => exact absurd rfl (hoption f)
    | unknown _ _ _ _ rest => rw [ih rest]

/-! ### What the items ask for -/

namespace Item

def term? : Item → Option String
  | term word => some word
  | _ => none

def scope? : Item → Option SearchScope
  | scope s => some s
  | _ => none

def bound? : Item → Option SizeBound
  | option .atMost (some operand) => (Size.parse? operand).map .atMost
  | option .atLeast (some operand) => (Size.parse? operand).map .atLeast
  | _ => none

def fileType? : Item → Option FileType
  | option .fileType (some operand) => FileType.parse? operand
  | _ => none

def content? : Item → Option Tth
  | option .content (some operand) => Digest.parse? 24 operand
  | _ => none

end Item

namespace Flag

def accepts : Flag → String → Bool
  | atMost, operand | atLeast, operand => (Size.parse? operand).isSome
  | fileType, operand => (FileType.parse? operand).isSome
  | content, operand => (Digest.parse? 24 operand).isSome

/-- The error of an operand that is not accepted. -/
def refusal : Flag → String → Error
  | atMost, operand => .invalidSize "-le" operand
  | atLeast, operand => .invalidSize "-ge" operand
  | fileType, operand => .invalidType "-t" operand
  | content, operand => .invalidTth "-tth" operand

end Flag

def Item.fault? : Item → Option Error
  | term _ | scope _ => none
  | option flag none => some (.missingOperand flag.text)
  | option flag (some operand) =>
    if flag.accepts operand then none else some (flag.refusal operand)
  | unknown word => some (.unknownOption word)

/-- The query changed by one more item. -/
def note (q : Query) (item : Item) : Query where
  terms := q.terms ++ item.term?.toList
  size := item.bound?.or q.size
  fileType := item.fileType?.getD q.fileType
  tth := item.content?.or q.tth
  scope := item.scope?.getD q.scope

section
variable (q : Query) {operand : String}

@[simp] theorem note_term (word : String) : q.note (.term word) = q.addTerm word := rfl

@[simp] theorem note_scope (s : SearchScope) : q.note (.scope s) = { q with scope := s } := by
  simp [note, Item.term?, Item.bound?, Item.fileType?, Item.content?, Item.scope?]

theorem note_atMost {bytes : Count} (h : Size.parse? operand = some bytes) :
    q.note (.option .atMost (some operand)) = { q with size := some (.atMost bytes) } := by
  simp [note, Item.term?, Item.bound?, Item.fileType?, Item.content?, Item.scope?, h]

theorem note_atLeast {bytes : Count} (h : Size.parse? operand = some bytes) :
    q.note (.option .atLeast (some operand)) = { q with size := some (.atLeast bytes) } := by
  simp [note, Item.term?, Item.bound?, Item.fileType?, Item.content?, Item.scope?, h]

theorem note_fileType {fileType : FileType} (h : FileType.parse? operand = some fileType) :
    q.note (.option .fileType (some operand)) = { q with fileType } := by
  simp [note, Item.term?, Item.bound?, Item.fileType?, Item.content?, Item.scope?, h]

theorem note_content {tth : Tth} (h : Digest.parse? 24 operand = some tth) :
    q.note (.option .content (some operand)) = { q with tth := some tth } := by
  simp [note, Item.term?, Item.bound?, Item.fileType?, Item.content?, Item.scope?, h]

end

/-! ### Reading item by item -/

theorem startsWith_dash_iff {word : String} :
    startsWith word "-" = true ↔ word.toList.head? = some '-' := by
  unfold startsWith
  cases word.toList with
  | nil => simp
  | cons c cs =>
    simp only [String.reduceToList, List.isPrefixOf_cons_cons, List.isPrefixOf_nil_left,
      Bool.and_true, beq_iff_eq, List.head?_cons, Option.some.injEq]
    exact eq_comm

section
variable (q : Query) (words : List String)

theorem readFrom_term {word : String} (h : word.toList.head? ≠ some '-') :
    q.readFrom (word :: words) = (q.note (.term word)).readFrom words := by
  have hlead : startsWith word "-" = false := by
    rw [Bool.eq_false_iff, Ne, startsWith_dash_iff]
    exact h
  conv_lhs => unfold readFrom
  rw [hlead]
  rfl

theorem readFrom_terms : q.readFrom ("--" :: words) = .ok ((words.map Item.term).foldl note q) := by
  have hfold : words.foldl addTerm q = (words.map Item.term).foldl note q := by
    rw [List.foldl_map]
    rfl
  unfold readFrom
  rw [← hfold, startsWith_dash_iff.2 (by decide)]
  rfl

theorem readFrom_scope (s : SearchScope) :
    q.readFrom (s.flag :: words) = (q.note (.scope s)).readFrom words := by
  conv_lhs => unfold readFrom
  rw [startsWith_dash_iff.2 (head?_flag s)]
  cases s <;> simp [SearchScope.flag]

theorem readFrom_flag (f : Flag) : q.readFrom (f.text :: words) = match words with
    | [] => .error (.missingOperand f.text)
    | operand :: words => q.withOperand f.text operand >>= fun q => q.readFrom words := by
  have htakes : takesOperand f.text = true := by cases f <;> decide
  conv_lhs => unfold readFrom
  rw [startsWith_dash_iff.2 f.head?_text, htakes]
  cases f <;> simp [Flag.text] <;> cases words <;> rfl

theorem withOperand_eq (f : Flag) (operand : String) : q.withOperand f.text operand =
    if f.accepts operand then .ok (q.note (.option f (some operand)))
    else .error (f.refusal operand) := by
  cases f with
  | atMost =>
    rcases Option.eq_none_or_eq_some (Size.parse? operand) with h | ⟨bytes, h⟩
    · simp [withOperand, Flag.text, Flag.accepts, Flag.refusal, h]
    · simp [withOperand, Flag.text, Flag.accepts, note_atMost q h, h]
  | atLeast =>
    rcases Option.eq_none_or_eq_some (Size.parse? operand) with h | ⟨bytes, h⟩
    · simp [withOperand, Flag.text, Flag.accepts, Flag.refusal, h]
    · simp [withOperand, Flag.text, Flag.accepts, note_atLeast q h, h]
  | fileType =>
    rcases Option.eq_none_or_eq_some (FileType.parse? operand) with h | ⟨fileType, h⟩
    · simp [withOperand, Flag.text, Flag.accepts, Flag.refusal, h]
    · simp [withOperand, Flag.text, Flag.accepts, note_fileType q h, h]
  | content =>
    rcases Option.eq_none_or_eq_some (Digest.parse? 24 operand) with h | ⟨tth, h⟩
    · simp [withOperand, Flag.text, Flag.accepts, Flag.refusal, h]
    · simp [withOperand, Flag.text, Flag.accepts, note_content q h, h]

theorem readFrom_unknown {word : String} (h : word.toList.head? = some '-') (hterms : word ≠ "--")
    (hscope : ∀ s, word ≠ SearchScope.flag s) (hoption : ∀ f, word ≠ Flag.text f) :
    q.readFrom (word :: words) = .error (.unknownOption word) := by
  have hhub : word ≠ "-hub" := hscope .currentHub
  have hall : word ≠ "-all" := hscope .allHubs
  have htakes : takesOperand word = false := by
    have hle : word ≠ "-le" := hoption .atMost
    have hge : word ≠ "-ge" := hoption .atLeast
    have ht : word ≠ "-t" := hoption .fileType
    have htth : word ≠ "-tth" := hoption .content
    simp [takesOperand, hle, hge, ht, htth]
  unfold readFrom
  rw [startsWith_dash_iff.2 h]
  simp [hterms, hhub, hall, htakes]

end

/-- The leftmost item with a fault decides; without one every item is noted. -/
theorem Reads.readFrom_eq {words : List String} {items : List Item} (h : Reads words items)
    (q : Query) : q.readFrom words = match items.findSome? Item.fault? with
      | some e => .error e
      | none => .ok (items.foldl note q) := by
  induction h generalizing q with
  | nil =>
    unfold readFrom
    rfl
  | terms words =>
    have hnone : (words.map Item.term).findSome? Item.fault? = none := by simp [Item.fault?]
    rw [readFrom_terms, hnone]
  | term hdash rest ih =>
    rw [readFrom_term _ _ hdash, ih]
    rfl
  | scope s rest ih =>
    rw [readFrom_scope, ih]
    rfl
  | option f operand rest ih =>
    rw [readFrom_flag]
    simp only [withOperand_eq]
    by_cases haccepts : f.accepts operand = true
    · simp only [haccepts, List.findSome?_cons, Item.fault?]
      exact ih _
    · simp [haccepts, Item.fault?, bind, Except.bind]
  | missing f => exact readFrom_flag q [] f
  | unknown hdash hterms hscope hoption rest =>
    rw [readFrom_unknown _ _ hdash hterms hscope hoption]
    rfl

/-! ### The query of items without faults -/

/-- What the last item with such a value says. -/
def last {α : Type} (value? : Item → Option α) (items : List Item) : Option α :=
  items.reverse.findSome? value?

theorem last_cons {α : Type} (value? : Item → Option α) (item : Item) (items : List Item) :
    last value? (item :: items) = (last value? items).or (value? item) := by
  simp [last, List.findSome?_append]

theorem foldl_note (items : List Item) (q : Query) : items.foldl note q =
    { terms := q.terms ++ items.filterMap Item.term?
      size := (last Item.bound? items).or q.size
      fileType := (last Item.fileType? items).getD q.fileType
      tth := (last Item.content? items).or q.tth
      scope := (last Item.scope? items).getD q.scope } := by
  induction items generalizing q with
  | nil => simp [last]
  | cons item items ih =>
    have hterms : item.term?.toList ++ items.filterMap Item.term? =
        (item :: items).filterMap Item.term? := by
      cases item <;> rfl
    rw [List.foldl_cons, ih]
    simp only [note, last_cons, Option.or_assoc, Option.getD_or, List.append_assoc, hterms]

theorem parse?_ne_content (s : String) : FileType.parse? s ≠ some .content := by
  have hmem : FileType.content ∉ FileType.selectable := by decide
  intro h
  unfold FileType.parse? at h
  split at h
  · split at h
    · cases h
    · exact hmem (List.mem_of_getElem? h)
  · exact hmem (List.mem_of_find?_eq_some h)

theorem last_fileType?_ne_content (items : List Item) :
    (last Item.fileType? items).getD .any ≠ .content := by
  cases h : last Item.fileType? items with
  | none => decide
  | some fileType =>
    rintro rfl
    obtain ⟨item, -, hitem⟩ := List.exists_of_findSome?_eq_some h
    unfold Item.fileType? at hitem
    split at hitem
    · exact parse?_ne_content _ hitem
    · cases hitem

/-- What the query of items without faults is made of. -/
structure Asks (items : List Item) (q : Query) : Prop where
  terms : q.terms = items.filterMap Item.term?
  size : q.size = last Item.bound? items
  scope : q.scope = (last Item.scope? items).getD .currentHub
  tth : q.tth = last Item.content? items
  content : q.fileType = .content ↔ q.tth ≠ none
  fileType : q.tth = none → q.fileType = (last Item.fileType? items).getD .any

/-- A term or a content must be sought. -/
def Item.Sought (item : Item) : Prop :=
  (∃ word, item = .term word) ∨ ∃ operand, item = .option .content operand

theorem Reads.ofWords_of_fault {words : List String} {items : List Item} {e : Error}
    (h : Reads words items) (hfault : items.findSome? Item.fault? = some e) :
    ofWords words = .error e := by
  unfold ofWords
  rw [h.readFrom_eq, hfault]
  rfl

theorem Reads.ofWords_eq {words : List String} {items : List Item} (h : Reads words items)
    (hgood : ∀ item ∈ items, item.fault? = none) :
    ofWords words = complete (items.foldl note blank) := by
  have hnone : items.findSome? Item.fault? = none := List.findSome?_eq_none_iff.2 hgood
  unfold ofWords
  rw [h.readFrom_eq, hnone]
  rfl

theorem asks_of_complete {items : List Item} {q : Query}
    (h : complete (items.foldl note blank) = .ok q) : Asks items q := by
  have htype := last_fileType?_ne_content items
  rw [foldl_note] at h
  simp only [complete, blank, List.nil_append, Option.or_none] at h
  split at h
  · next hsome =>
    obtain rfl := pure_eq_ok_iff.1 h
    have hne := Option.isSome_iff_ne_none.1 hsome
    exact ⟨rfl, rfl, rfl, rfl, by simpa using hne, fun hnone => absurd hnone hne⟩
  · next hnone =>
    split at h
    · exact absurd h throw_ne_ok
    · obtain rfl := pure_eq_ok_iff.1 h
      exact ⟨rfl, rfl, rfl, rfl, by simp_all, fun _ => rfl⟩

theorem complete_eq_error {q : Query} {e : Error} (h : complete q = .error e) : e = .empty := by
  unfold complete at h
  split at h
  · exact absurd h pure_ne_error
  · split at h
    · exact (throw_eq_error_iff.1 h).symm
    · exact absurd h pure_ne_error

theorem exists_complete_iff {q : Query} :
    (∃ q', complete q = .ok q') ↔ q.terms ≠ [] ∨ q.tth ≠ none := by
  unfold complete
  cases htth : q.tth <;> cases hterms : q.terms <;> simp

theorem Item.term?_eq_none_iff {item : Item} : item.term? = none ↔ ∀ word, item ≠ .term word := by
  cases item <;> simp [Item.term?]

theorem last_eq_none_iff {α : Type} {value? : Item → Option α} {items : List Item} :
    last value? items = none ↔ ∀ item ∈ items, value? item = none := by
  simp [last, List.findSome?_eq_none_iff]

/-- An accepted operand of the option gives a hash. -/
theorem Item.content?_eq_none_iff {item : Item} (h : item.fault? = none) :
    item.content? = none ↔ ∀ operand, item ≠ .option .content operand := by
  rcases item with word | s | ⟨flag, _ | operand⟩ | word
  · simp [Item.content?]
  · simp [Item.content?]
  · simp [Item.fault?] at h
  · cases flag with
    | content =>
      have haccepts : (Digest.parse? 24 operand).isSome = true := by
        by_contra hnot
        simp [Item.fault?, Flag.accepts, hnot] at h
      simpa [Item.content?, Option.isSome_iff_ne_none] using haccepts
    | _ => simp [Item.content?]
  · simp [Item.fault?] at h

theorem sought_iff {items : List Item} (hgood : ∀ item ∈ items, item.fault? = none) :
    (items.foldl note blank).terms ≠ [] ∨ (items.foldl note blank).tth ≠ none ↔
      ∃ item ∈ items, item.Sought := by
  have hterms : (items.foldl note blank).terms = [] ↔
      ∀ item ∈ items, ∀ word, item ≠ .term word := by
    rw [foldl_note]
    simp only [blank, List.nil_append, List.filterMap_eq_nil_iff, Item.term?_eq_none_iff]
  have htth : (items.foldl note blank).tth = none ↔
      ∀ item ∈ items, ∀ operand, item ≠ .option .content operand := by
    rw [foldl_note]
    simp only [blank, Option.or_none, last_eq_none_iff]
    exact forall₂_congr fun item hitem => Item.content?_eq_none_iff (hgood item hitem)
  rw [Ne, Ne, hterms, htth]
  simp only [Item.Sought]
  push Not
  constructor
  · rintro (⟨item, hitem, h⟩ | ⟨item, hitem, h⟩)
    · exact ⟨item, hitem, .inl h⟩
    · exact ⟨item, hitem, .inr h⟩
  · rintro ⟨item, hitem, h | h⟩
    · exact .inl ⟨item, hitem, h⟩
    · exact .inr ⟨item, hitem, h⟩

/-! ### Words after the others -/

/-- What has been read stays so when words follow, but for an option that lacks its operand. -/
theorem Reads.append {words : List String} {front back : List Item}
    (h : Reads words (front ++ back)) (hcomplete : ∀ flag, .option flag none ∉ front)
    (more : List String) : ∃ rest, Reads (words ++ more) (front ++ rest) := by
  induction front generalizing words with
  | nil => exact exists_reads (words ++ more)
  | cons item front ih =>
    have hfront : ∀ flag, .option flag none ∉ front := fun flag hmem =>
      hcomplete flag (List.mem_cons_of_mem item hmem)
    generalize hitems : item :: front ++ back = items at h
    cases h with
    | nil => simp at hitems
    | terms words =>
      refine ⟨back ++ more.map .term, ?_⟩
      rw [← List.append_assoc, hitems, ← List.map_append]
      exact .terms (words ++ more)
    | term hdash hread =>
      obtain ⟨rfl, rfl⟩ := List.cons.inj hitems
      obtain ⟨rest, hrest⟩ := ih hread hfront
      exact ⟨rest, .term hdash hrest⟩
    | scope s hread =>
      obtain ⟨rfl, rfl⟩ := List.cons.inj hitems
      obtain ⟨rest, hrest⟩ := ih hread hfront
      exact ⟨rest, .scope s hrest⟩
    | option f operand hread =>
      obtain ⟨rfl, rfl⟩ := List.cons.inj hitems
      obtain ⟨rest, hrest⟩ := ih hread hfront
      exact ⟨rest, .option f operand hrest⟩
    | missing f =>
      obtain ⟨rfl, -⟩ := List.cons.inj hitems
      exact absurd List.mem_cons_self (hcomplete f)
    | unknown hdash hterms hscope hoption hread =>
      obtain ⟨rfl, rfl⟩ := List.cons.inj hitems
      obtain ⟨rest, hrest⟩ := ih hread hfront
      exact ⟨rest, .unknown hdash hterms hscope hoption hrest⟩

/-- An option that lacks its operand is the last item, and takes the next word if there is one. -/
theorem Reads.append_missing {words more : List String} {front back rest : List Item} {flag : Flag}
    (h : Reads words (front ++ .option flag none :: back)) (hmore : Reads more rest)
    (operand : String) : back = [] ∧
      Reads (words ++ operand :: more) (front ++ .option flag (some operand) :: rest) := by
  induction front generalizing words with
  | nil =>
    generalize hitems : [] ++ .option flag none :: back = items at h
    cases h with
    | nil => simp at hitems
    | terms words => cases words <;> simp at hitems
    | missing f =>
      obtain ⟨hf, rfl⟩ := List.cons.inj hitems
      obtain ⟨rfl, -⟩ := Item.option.inj hf
      exact ⟨rfl, .option flag operand hmore⟩
    | _ => simp at hitems
  | cons item front ih =>
    generalize hitems : item :: front ++ .option flag none :: back = items at h
    cases h with
    | nil => simp at hitems
    | terms words =>
      have hmem : Item.option flag none ∈ words.map Item.term := by simp [← hitems]
      simp at hmem
    | term hdash hread =>
      obtain ⟨rfl, rfl⟩ := List.cons.inj hitems
      exact ⟨(ih hread).1, .term hdash (ih hread).2⟩
    | scope s hread =>
      obtain ⟨rfl, rfl⟩ := List.cons.inj hitems
      exact ⟨(ih hread).1, .scope s (ih hread).2⟩
    | option f operand hread =>
      obtain ⟨rfl, rfl⟩ := List.cons.inj hitems
      exact ⟨(ih hread).1, .option f operand (ih hread).2⟩
    | missing f => simp at hitems
    | unknown hdash hterms hscope hoption hread =>
      obtain ⟨rfl, rfl⟩ := List.cons.inj hitems
      exact ⟨(ih hread).1, .unknown hdash hterms hscope hoption (ih hread).2⟩

/-- Words are read from left to right in exactly one way. If no item has a fault, the query has the
terms in order, and else what the last item says; there is one iff there is a term or a hash. The
error is that of the leftmost item with a fault, whatever words follow; only an option that lacks
its operand takes the next word as operand. -/
theorem reads_as_items (words : List String) : ∃ items, Reads words items ∧
    (∀ others, Reads words others → others = items) ∧
    ((∀ item ∈ items, item.fault? = none) →
      ((∃ q, ofWords words = .ok q) ↔ ∃ item ∈ items, item.Sought) ∧
      (∀ q, ofWords words = .ok q → Asks items q) ∧
      ∀ e, ofWords words = .error e → e = .empty) ∧
    ∀ front item back e, items = front ++ item :: back → (∀ i ∈ front, i.fault? = none) →
      item.fault? = some e →
      ofWords words = .error e ∧
      ((∀ flag, item ≠ .option flag none) → ∀ more, ofWords (words ++ more) = .error e) ∧
      ∀ flag, item = .option flag none → back = [] ∧ ∀ operand more rest, Reads more rest →
        Reads (words ++ operand :: more) (front ++ .option flag (some operand) :: rest) := by
  obtain ⟨items, hitems⟩ := exists_reads words
  refine ⟨items, hitems, fun others => hitems.unique, fun hgood => ?_, ?_⟩
  · have heq := hitems.ofWords_eq hgood
    refine ⟨?_, fun q hq => asks_of_complete (heq ▸ hq), fun e he => complete_eq_error (heq ▸ he)⟩
    rw [heq, exists_complete_iff, sought_iff hgood]
  · rintro front item back e rfl hfront hitem
    have hfault : ∀ rest, (front ++ item :: rest).findSome? Item.fault? = some e := by
      intro rest
      have hnone := List.findSome?_eq_none_iff.2 hfront
      simp [List.findSome?_append, hnone, hitem]
    refine ⟨hitems.ofWords_of_fault (hfault back), fun hoption more => ?_, ?_⟩
    · have hcomplete : ∀ flag, .option flag none ∉ front ++ [item] := by
        intro flag hmem
        rcases List.mem_append.1 hmem with hmem | hmem
        · have hnone := hfront _ hmem
          cases hnone
        · exact hoption flag (List.mem_singleton.1 hmem).symm
      have hread : Reads words (front ++ [item] ++ back) := by simpa using hitems
      obtain ⟨rest, hrest⟩ := hread.append hcomplete more
      rw [List.append_assoc] at hrest
      exact hrest.ofWords_of_fault (hfault rest)
    · rintro flag rfl
      refine ⟨(hitems.append_missing .nil "").1, fun operand more rest hrest => ?_⟩
      exact (hitems.append_missing hrest operand).2

end Query
end HubConsole
