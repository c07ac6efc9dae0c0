import HubConsole.Proofs.Base32
import HubConsole.Proofs.QueryItems
import HubConsole.Proofs.QuotedWords
import HubConsole.Proofs.Value

/-! # The text of a search

Each query that can be read is read from a text that writes out all its parts, its options as plain
words and its terms in quotes (`Query.parse_written`). A text without quotes is read as its words,
but for those that stand in a comment (`Query.parse_unquoted`). -/

namespace HubConsole
open Text

namespace Query

/-! ### Writing a query -/

/-- The words of an option on sizes. -/
def boundWords : SizeBound → List String
  | .atMost bytes => ["-le", bytes.text]
  | .atLeast bytes => ["-ge", bytes.text]

/-- All that stands before the terms. -/
def optionWords (q : Query) : List String :=
  q.scope.flag :: (q.size.elim [] boundWords ++
    ((if q.fileType = .content then [] else ["-t", q.fileType.keyword]) ++
      (q.tth.elim [] (fun tth => ["-tth", tth.text]) ++ ["--"])))

/-- A term in single quotes. -/
def quotedTerm (term : String) : String := String.ofList (quoteWord term.toList)

/-- The text of the query with all its parts written out. -/
def written (q : Query) : String := joinWith " " (q.optionWords ++ q.terms.map quotedTerm)

/-! ### Its words are read -/

section
variable (q : Query) (words : List String)

theorem readFrom_accepted {f : Flag} {operand : String} (h : f.accepts operand = true) :
    q.readFrom (f.text :: operand :: words) =
      (q.note (.option f (some operand))).readFrom words := by
  rw [readFrom_flag]
  simp only [withOperand_eq, h]
  rfl

theorem readFrom_size (size : Option SizeBound) : q.readFrom (size.elim [] boundWords ++ words) =
    { q with size := size.or q.size }.readFrom words := by
  rcases size with _ | ⟨bytes | bytes⟩
  · rfl
  · have hread := Size.parse?_text bytes
    have hbound := note_atLeast q hread
    rw [Option.some_or, ← hbound]
    exact readFrom_accepted q words (f := .atLeast) (by simp [Flag.accepts, hread])
  · have hread := Size.parse?_text bytes
    have hbound := note_atMost q hread
    rw [Option.some_or, ← hbound]
    exact readFrom_accepted q words (f := .atMost) (by simp [Flag.accepts, hread])

theorem parse?_keyword {t : FileType} (h : t ≠ .content) :
    FileType.parse? t.keyword = some t := by
  cases t with
  | content => exact absurd rfl h
  | _ => decide

theorem readFrom_fileType (t : FileType) :
    q.readFrom ((if t = FileType.content then [] else ["-t", t.keyword]) ++ words) =
      { q with fileType := if t = FileType.content then q.fileType else t }.readFrom words := by
  by_cases h : t = .content
  · rw [if_pos h, if_pos h]
    rfl
  · have hread := parse?_keyword h
    have htype := note_fileType q hread
    rw [if_neg h, if_neg h, ← htype]
    exact readFrom_accepted q words (f := .fileType) (by simp [Flag.accepts, hread])

theorem readFrom_tth (tth : Option Tth) :
    q.readFrom (tth.elim [] (fun tth => ["-tth", tth.text]) ++ words) =
      { q with tth := tth.or q.tth }.readFrom words := by
  cases tth with
  | none => rfl
  | some tth =>
    have hread := tth.parse?_text
    have hcontent := note_content q hread
    rw [Option.some_or, ← hcontent]
    exact readFrom_accepted q words (f := .content) (by simp [Flag.accepts, hread])

theorem foldl_note_terms :
    (words.map Item.term).foldl note q = { q with terms := q.terms ++ words } := by
  induction words generalizing q with
  | nil => simp
  | cons word words ih =>
    rw [List.map_cons, List.foldl_cons, ih]
    simp [addTerm]

end

/-- What can be read: something is sought, and the type of file is settled by a hash. -/
structure Readable (q : Query) : Prop where
  sought : q.terms ≠ [] ∨ q.tth ≠ none
  content : q.fileType = .content ↔ q.tth ≠ none

theorem ofWords_optionWords {q : Query} (h : q.Readable) :
    ofWords (q.optionWords ++ q.terms) = .ok q := by
  obtain ⟨terms, size, fileType, tth, scope⟩ := q
  have hread : blank.readFrom (optionWords ⟨terms, size, fileType, tth, scope⟩ ++ terms) =
      .ok ⟨terms, size, if fileType = .content then .any else fileType, tth, scope⟩ := by
    simp only [optionWords, blank, List.cons_append, List.append_assoc, List.nil_append,
      readFrom_scope, note_scope, readFrom_size, readFrom_fileType, readFrom_tth, readFrom_terms,
      foldl_note_terms, Option.or_none]
  unfold ofWords
  rw [hread]
  show complete _ = _
  cases tth with
  | none =>
    have hterms : terms ≠ [] := by simpa using h.sought
    have hcontent : fileType ≠ .content := by simpa using h.content
    simp [complete, hterms, hcontent]
  | some tth =>
    have hcontent : fileType = .content := by simpa using h.content
    simp [complete, hcontent]

/-! ### Its text is read -/

theorem isPlainChar_of_isAlphanum {c : Char} (h : c.isAlphanum = true) :
    isPlainChar c = true ∧ c ≠ '#' := by
  have hne : ∀ d : Char, d.isAlphanum = false → c ≠ d := by
    rintro d hd rfl
    rw [h] at hd
    cases hd
  refine ⟨?_, hne '#' (by decide)⟩
  simp [isPlainChar, isWordGap, hne ' ' (by decide), hne '\t' (by decide), hne '\n' (by decide),
    hne '\x27' (by decide), hne '\x22' (by decide), hne '\\' (by decide)]

theorem spells_of_forall {word : String} (hne : word.toList ≠ [])
    (h : ∀ c ∈ word.toList, isPlainChar c = true ∧ c ≠ '#') : Spells word.toList word.toList := by
  refine spells_of_isPlain hne (fun c hc => (h c hc).1) fun hhash => ?_
  exact (h '#' (List.mem_of_head? hhash)).2 rfl

/-- The word needs no quotes, wherever it stands. -/
def isPlainWord (word : String) : Bool :=
  !word.toList.isEmpty && word.toList.all fun c => isPlainChar c && c != '#'

theorem spells_of_isPlainWord {word : String} (h : isPlainWord word = true) :
    Spells word.toList word.toList := by
  simp only [isPlainWord, Bool.and_eq_true, List.all_eq_true, Bool.not_eq_true',
    List.isEmpty_eq_false_iff, bne_iff_ne] at h
  exact spells_of_forall h.1 h.2

theorem spells_count (u : Count) : Spells u.text.toList u.text.toList := by
  refine spells_of_forall ?_ fun c hc => ?_
  · rw [Count.toList_text]
    exact Nat.toDigits_ne_nil
  · rw [Count.toList_text] at hc
    have hdigit := List.all_eq_true.1 (Count.all_isDigit_toDigits u.toNat) c hc
    exact isPlainChar_of_isAlphanum (isAlphanum_of_isDigit hdigit)

theorem spells_tth (tth : Tth) : Spells tth.text.toList tth.text.toList := by
  refine spells_of_forall ?_ fun c hc => ?_
  · refine List.ne_nil_of_length_pos ?_
    rw [tth.length_text]
    decide
  · have hdigit := Digest.isSome_digit?_of_mem_text hc
    exact isPlainChar_of_isAlphanum (Base32.isAlphanum_of_digit? hdigit)

theorem spells_boundWords (bound : SizeBound) :
    ∀ word ∈ boundWords bound, Spells word.toList word.toList := by
  intro word hword
  cases bound with
  | atMost bytes =>
    rcases List.mem_pair.1 hword with rfl | rfl
    · exact spells_of_isPlainWord (by decide)
    · exact spells_count bytes
  | atLeast bytes =>
    rcases List.mem_pair.1 hword with rfl | rfl
    · exact spells_of_isPlainWord (by decide)
    · exact spells_count bytes

/-- What stands before the terms needs no quotes. -/
theorem spells_optionWords {q : Query} :
    ∀ word ∈ q.optionWords, Spells word.toList word.toList := by
  intro word hword
  obtain ⟨terms, size, fileType, tth, scope⟩ := q
  simp only [optionWords, List.mem_cons, List.mem_append, List.not_mem_nil, or_false] at hword
  rcases hword with rfl | hword | hword | hword | rfl
  · cases scope <;> exact spells_of_isPlainWord (by decide)
  · cases size with
    | none => cases hword
    | some bound => exact spells_boundWords bound word hword
  · split_ifs at hword
    · cases hword
    · rcases List.mem_pair.1 hword with rfl | rfl
      · exact spells_of_isPlainWord (by decide)
      · cases fileType <;> exact spells_of_isPlainWord (by decide)
  · cases tth with
    | none => cases hword
    | some tth =>
      rcases List.mem_pair.1 hword with rfl | rfl
      · exact spells_of_isPlainWord (by decide)
      · exact spells_tth tth
  · exact spells_of_isPlainWord (by decide)

theorem spells_quotedTerm (term : String) : Spells (quotedTerm term).toList term.toList := by
  rw [quotedTerm, String.toList_ofList]
  exact spells_quoteWord term.toList

/-- A query that can be read is read from its text. -/
theorem parse_written {q : Query} (hsought : q.terms ≠ [] ∨ q.tth ≠ none)
    (hcontent : q.fileType = .content ↔ q.tth ≠ none) : parse q.written = .ok q := by
  have hoptions : List.Forall₂ (fun t w : String => Spells t.toList w.toList)
      q.optionWords q.optionWords :=
    List.forall₂_same.2 spells_optionWords
  have hterms : List.Forall₂ (fun t w : String => Spells t.toList w.toList)
      (q.terms.map quotedTerm) q.terms :=
    List.forall₂_map_left_iff.2 (List.forall₂_same.2 fun term _ => spells_quotedTerm term)
  have hwords : quotedWords? q.written = some (q.optionWords ++ q.terms) :=
    quotedWords?_joinWith (List.rel_append hoptions hterms)
  unfold parse
  rw [hwords]
  exact ofWords_optionWords ⟨hsought, hcontent⟩

/-- A term may be empty, or have quotes, blanks, newlines, or a dash or `#` in front. -/
theorem parse_written_quotes :
    let q : Query := ⟨["", "it\x27s", "-t #\n\\"], some (.atMost 18446744073709551615), .content,
      some ⟨List.replicate 24 255, rfl⟩, .allHubs⟩
    (q.terms ≠ [] ∨ q.tth ≠ none) ∧ (q.fileType = .content ↔ q.tth ≠ none) ∧
      q.written = "-all -le 18446744073709551615 -tth 77777777777777777777777777777777777777Y " ++
        "-- \x27\x27 \x27it\x27\\\x27\x27s\x27 \x27-t #\n\\\x27" ∧
      parse q.written = .ok q :=
  ⟨by decide, by decide, by decide +kernel, parse_written (by decide) (by decide)⟩

/-! ### Texts without quotes -/

/-- Without quotes and backslashes the words of the text are those outside of comments, in their
order; all words are read iff none of them begins with `#`. -/
theorem parse_unquoted {s : String} (h : ∀ c ∈ s.toList, c ≠ '\x27' ∧ c ≠ '\x22' ∧ c ≠ '\\') :
    parse s = ofWords ((uncommented s.toList).map String.ofList) ∧
    (uncommented s.toList).Sublist (gapWords s.toList) ∧
    (uncommented s.toList = gapWords s.toList ↔
      ∀ w ∈ gapWords s.toList, w.head? ≠ some '#') := by
  have hunquoted : ∀ c ∈ s.toList, isUnquoted c = true := by
    intro c hc
    simp [isUnquoted, h c hc]
  refine ⟨?_, uncommented_sublist s.toList, uncommented_eq_gapWords_iff s.toList⟩
  unfold parse quotedWords?
  rw [(wordsFrom_eq hunquoted).1]
  rfl

theorem parse_unquoted_lines :
    let s := "rust #2026 edition\n\t-all a#b "
    parse s = ofWords ["rust", "-all", "a#b"] := by
  intro s
  have hwords : (uncommented s.toList).map String.ofList = ["rust", "-all", "a#b"] := by decide
  have hplain : ∀ c ∈ s.toList, c ≠ '\x27' ∧ c ≠ '\x22' ∧ c ≠ '\\' := by simp [s]
  rw [← hwords]
  exact (parse_unquoted hplain).1

/-- A word that begins with `#` is not sought. -/
theorem not_parse_gapWords : ¬ ∀ s : String,
    (∀ c ∈ s.toList, c ≠ '\x27' ∧ c ≠ '\x22' ∧ c ≠ '\\') →
      parse s = ofWords ((gapWords s.toList).map String.ofList) := by
  intro h
  have hlost := h "foo #bar" (by simp)
  have hwords : (gapWords "foo #bar".toList).map String.ofList = ["foo", "#bar"] := by decide
  have hparse : parse "foo #bar" = .ok ⟨["foo"], none, .any, none, .currentHub⟩ := by decide +kernel
  have hboth : ofWords ["foo", "#bar"] = .ok ⟨["foo", "#bar"], none, .any, none, .currentHub⟩ := by
    decide +kernel
  rw [hwords, hparse, hboth] at hlost
  revert hlost
  decide

end Query
end HubConsole
