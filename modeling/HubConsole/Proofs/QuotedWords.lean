import HubConsole.Text.Basic
import HubConsole.Text.Words
import Mathlib.Data.List.Flatten
import Mathlib.Data.List.Forall2
import Mathlib.Data.List.TakeWhile

/-! # Words with and without quotes

A word in single quotes reads back as itself whatever its characters are, and a word without special
characters needs no quotes (`spells_quoteWord`, `spells_of_isPlain`); words that are written so and
joined by blanks come apart again (`quotedWords?_joinWith`).

Of a text without quotes and backslashes all maximal runs between gaps are read, but for those from
the first one on a line that begins with `#` (`wordsFrom_unquoted`). -/

namespace HubConsole.Text

/-! ### Written words -/

/-- The text is read as the word where a gap or the end follows. -/
def Spells (text word : List Char) : Prop :=
  ∀ rest, (∀ c ∈ rest.head?, isWordGap c = true) →
    wordsFrom .gap [] (text ++ rest) = (wordsFrom .gap [] rest).map (word :: ·)

/-- The character stands for itself inside a word. -/
def isPlainChar (c : Char) : Bool :=
  !isWordGap c && c != '\x27' && c != '\x22' && c != '\\'

theorem wordsFrom_gap_cons {c : Char} (h : isWordGap c = true) (cs : List Char) :
    wordsFrom .gap [] (c :: cs) = wordsFrom .gap [] cs := by
  have hc : c = ' ' ∨ c = '\t' ∨ c = '\n' := by simpa [isWordGap, or_assoc] using h
  rcases hc with rfl | rfl | rfl <;> rfl

/-- Where a gap or the end follows, the word is done. -/
theorem wordsFrom_plain_gap {rest : List Char} (h : ∀ c ∈ rest.head?, isWordGap c = true)
    (word : List Char) :
    wordsFrom .plain word rest = (wordsFrom .gap [] rest).map (word :: ·) := by
  cases rest with
  | nil => rfl
  | cons c cs =>
    have hgap := h c rfl
    have hc : c = ' ' ∨ c = '\t' ∨ c = '\n' := by simpa [isWordGap, or_assoc] using hgap
    rw [wordsFrom_gap_cons hgap]
    rcases hc with rfl | rfl | rfl <;> rfl

theorem wordsFrom_plain_cons {c : Char} (h : isPlainChar c = true) (word cs : List Char) :
    wordsFrom .plain word (c :: cs) = wordsFrom .plain (word ++ [c]) cs := by
  simp only [isPlainChar, Bool.and_eq_true, Bool.not_eq_true', bne_iff_ne] at h
  obtain ⟨⟨⟨hgap, hsingle⟩, hdouble⟩, hback⟩ := h
  rw [wordsFrom, if_neg hsingle, if_neg hdouble, if_neg hback, hgap]
  simp

theorem wordsFrom_plain_append {run : List Char} (h : ∀ c ∈ run, isPlainChar c = true)
    (word rest : List Char) :
    wordsFrom .plain word (run ++ rest) = wordsFrom .plain (word ++ run) rest := by
  induction run generalizing word with
  | nil => simp
  | cons c run ih =>
    rw [List.forall_mem_cons] at h
    rw [List.cons_append, wordsFrom_plain_cons h.1, ih h.2, List.append_assoc]
    rfl

/-- A word begins where a plain character stands that begins no comment. -/
theorem wordsFrom_gap_plain {c : Char} (h : isPlainChar c = true) (hhash : c ≠ '#')
    (cs : List Char) : wordsFrom .gap [] (c :: cs) = wordsFrom .plain [c] cs := by
  simp only [isPlainChar, Bool.and_eq_true, Bool.not_eq_true', bne_iff_ne] at h
  obtain ⟨⟨⟨hgap, hsingle⟩, hdouble⟩, hback⟩ := h
  rw [wordsFrom, if_neg hsingle, if_neg hdouble, if_neg hback, hgap]
  simp [hhash]

theorem spells_of_isPlain {word : List Char} (hne : word ≠ [])
    (hplain : ∀ c ∈ word, isPlainChar c = true) (hhash : word.head? ≠ some '#') :
    Spells word word := by
  intro rest hrest
  cases word with
  | nil => exact absurd rfl hne
  | cons c word =>
    rw [List.forall_mem_cons] at hplain
    have hc : c ≠ '#' := by simpa using hhash
    rw [List.cons_append, wordsFrom_gap_plain hplain.1 hc, wordsFrom_plain_append hplain.2,
      wordsFrom_plain_gap hrest]
    rfl

/-- What stands between the quotes of a quoted word. -/
def quoted (cs : List Char) : List Char :=
  cs.flatMap fun c => if c = '\x27' then ['\x27', '\\', '\x27', '\x27'] else [c]

theorem wordsFrom_single_quoted (cs word rest : List Char) :
    wordsFrom .single word (quoted cs ++ '\x27' :: rest) = wordsFrom .plain (word ++ cs) rest := by
  induction cs generalizing word with
  | nil =>
    rw [List.append_nil]
    rfl
  | cons c cs ih =>
    have hcons : word ++ c :: cs = word ++ [c] ++ cs := by simp
    rw [hcons, ← ih]
    by_cases hc : c = '\x27'
    · subst hc
      rfl
    · have hquoted : quoted (c :: cs) = c :: quoted cs := by simp [quoted, hc]
      rw [hquoted, List.cons_append, wordsFrom, if_neg hc]

theorem spells_quoteWord (word : List Char) : Spells (quoteWord word) word := by
  intro rest hrest
  have htext : quoteWord word ++ rest = '\x27' :: (quoted word ++ '\x27' :: rest) := by
    simp [quoteWord, quoted]
  have hopen : ∀ cs, wordsFrom .gap [] ('\x27' :: cs) = wordsFrom .single [] cs := fun _ => rfl
  rw [htext, hopen, wordsFrom_single_quoted, List.nil_append, wordsFrom_plain_gap hrest]

theorem quotedWords?_joinWith {texts words : List String}
    (h : List.Forall₂ (fun t w : String => Spells t.toList w.toList) texts words) :
    quotedWords? (joinWith " " texts) = some words := by
  have hread : wordsFrom .gap [] (joinWith " " texts).toList = some (words.map String.toList) := by
    induction h with
    | nil => rfl
    | @cons t w texts words hspells hrest ih =>
      cases texts with
      | nil =>
        obtain rfl := List.forall₂_nil_left_iff.1 hrest
        have hlast := hspells [] (by simp)
        rw [List.append_nil] at hlast
        exact hlast
      | cons t' texts =>
        have hjoin : (joinWith " " (t :: t' :: texts)).toList =
            t.toList ++ ' ' :: (joinWith " " (t' :: texts)).toList := by
          simp [joinWith]
        have hgap : isWordGap ' ' = true := by decide
        rw [hjoin, hspells _ (by simpa using hgap), wordsFrom_gap_cons hgap, ih]
        rfl
  rw [quotedWords?, hread]
  simp [Function.comp_def]

/-! ### Words without quotes -/

/-- The maximal runs of characters between gaps. -/
def gapWords (cs : List Char) : List (List Char) :=
  (pieces isWordGap cs).filter fun w => !w.isEmpty

/-- The words before the first that begins with `#`. -/
def beforeComment (ws : List (List Char)) : List (List Char) :=
  ws.takeWhile fun w => w.head? != some '#'

/-- The words of all lines, each line read up to its comment. -/
def uncommented (cs : List Char) : List (List Char) :=
  (pieces (· == '\n') cs).flatMap fun line => beforeComment (gapWords line)

theorem gapWords_append_cons {g : Char} (hg : isWordGap g = true) (a b : List Char) :
    gapWords (a ++ g :: b) = gapWords a ++ gapWords b := by
  rw [gapWords, pieces_append_cons hg, List.filter_append]
  rfl

theorem gapWords_cons_gap {g : Char} (hg : isWordGap g = true) (cs : List Char) :
    gapWords (g :: cs) = gapWords cs := gapWords_append_cons hg [] cs

theorem gapWords_word {word : List Char} (hne : word ≠ [])
    (h : ∀ c ∈ word, isWordGap c = false) : gapWords word = [word] := by
  rw [gapWords, pieces_eq_singleton h]
  simp [hne]

theorem gapWords_word_append {word rest : List Char} (hne : word ≠ [])
    (hword : ∀ c ∈ word, isWordGap c = false) (hrest : ∀ c ∈ rest.head?, isWordGap c = true) :
    gapWords (word ++ rest) = word :: gapWords rest := by
  cases rest with
  | nil =>
    rw [List.append_nil, gapWords_word hne hword]
    rfl
  | cons g rest =>
    have hg := hrest g rfl
    rw [gapWords_append_cons hg, gapWords_cons_gap hg, gapWords_word hne hword]
    rfl

/-- A character that is no gap begins the first word. -/
theorem exists_gapWords_cons {c : Char} (h : isWordGap c = false) (cs : List Char) :
    ∃ w ws, gapWords (c :: cs) = (c :: w) :: ws := by
  obtain ⟨p, ps, hps⟩ := List.exists_cons_of_ne_nil (pieces_ne_nil isWordGap cs)
  refine ⟨p, ps.filter fun w => !w.isEmpty, ?_⟩
  simp [gapWords, pieces, h, hps]

theorem beforeComment_cons {w : List Char} (h : w.head? ≠ some '#') (ws : List (List Char)) :
    beforeComment (w :: ws) = w :: beforeComment ws :=
  List.takeWhile_cons_of_pos (by simpa using h)

theorem uncommented_line {line : List Char} (h : '\n' ∉ line) :
    uncommented line = beforeComment (gapWords line) := by
  rw [uncommented, pieces_of_not_mem h]
  simp

theorem uncommented_line_append {line : List Char} (h : '\n' ∉ line) (cs : List Char) :
    uncommented (line ++ '\n' :: cs) = beforeComment (gapWords line) ++ uncommented cs := by
  rw [uncommented, pieces_append h]
  rfl

/-- What a text begins with is read on its first line. -/
theorem uncommented_append {a : List Char} (h : '\n' ∉ a) (cs : List Char) :
    uncommented (a ++ cs) = beforeComment (gapWords (a ++ cs.takeWhile (· != '\n'))) ++
      uncommented (cs.dropWhile (· != '\n')) := by
  have hline : '\n' ∉ a ++ cs.takeWhile (· != '\n') := by
    rw [List.mem_append, not_or]
    refine ⟨h, fun hmem => ?_⟩
    simpa using List.all_eq_true.1 List.all_takeWhile _ hmem
  have hcs : a ++ cs = a ++ cs.takeWhile (· != '\n') ++ cs.dropWhile (· != '\n') := by simp
  rw [hcs]
  cases hdrop : cs.dropWhile (· != '\n') with
  | nil =>
    rw [List.append_nil, uncommented_line hline]
    exact (List.append_nil _).symm
  | cons c rest =>
    obtain rfl : c = '\n' := by
      have hhead := List.head?_dropWhile_not (· != '\n') cs
      simpa [hdrop] using hhead
    rw [uncommented_line_append hline]
    rfl

/-- The first line, and the rest. -/
theorem uncommented_firstLine (cs : List Char) : uncommented cs =
    beforeComment (gapWords (cs.takeWhile (· != '\n'))) ++
      uncommented (cs.dropWhile (· != '\n')) := uncommented_append List.not_mem_nil cs

theorem uncommented_gap_cons {g : Char} (hg : isWordGap g = true) (cs : List Char) :
    uncommented (g :: cs) = uncommented cs := by
  by_cases hnl : g = '\n'
  · subst hnl
    exact uncommented_line_append List.not_mem_nil cs
  · have hcons := uncommented_append (a := [g]) (by simpa using Ne.symm hnl) cs
    rw [List.singleton_append, List.singleton_append, gapWords_cons_gap hg] at hcons
    rw [hcons, ← uncommented_firstLine]

/-- A comment takes the rest of its line. -/
theorem uncommented_hash_cons (cs : List Char) :
    uncommented ('#' :: cs) = uncommented (cs.dropWhile (· != '\n')) := by
  obtain ⟨w, ws, hws⟩ := exists_gapWords_cons (by decide : isWordGap '#' = false)
    (cs.takeWhile (· != '\n'))
  have hnone : beforeComment (('#' :: w) :: ws) = [] := by simp [beforeComment]
  have happend := uncommented_append (a := ['#']) (by simp) cs
  rw [List.singleton_append, List.singleton_append, hws, hnone] at happend
  exact happend

/-- A word outside of comments is read. -/
theorem uncommented_word_append {word rest : List Char} (hne : word ≠ [])
    (hword : ∀ c ∈ word, isWordGap c = false) (hhash : word.head? ≠ some '#')
    (hrest : ∀ c ∈ rest.head?, isWordGap c = true) :
    uncommented (word ++ rest) = word :: uncommented rest := by
  have hline : '\n' ∉ word := fun hmem => absurd (hword _ hmem) (by decide)
  have hend : ∀ c ∈ (rest.takeWhile (· != '\n')).head?, isWordGap c = true := by
    intro c hc
    refine hrest c ?_
    rw [List.head?_takeWhile] at hc
    exact (Option.mem_filter_iff.1 hc).1
  rw [uncommented_append hline, gapWords_word_append hne hword hend, beforeComment_cons hhash,
    uncommented_firstLine rest]
  rfl

/-- No quote and no backslash. -/
def isUnquoted (c : Char) : Bool := c != '\x27' && c != '\x22' && c != '\\'

theorem isPlainChar_of_isUnquoted {c : Char} (h : isUnquoted c = true)
    (hgap : isWordGap c = false) : isPlainChar c = true := by
  simp only [isUnquoted, Bool.and_eq_true] at h
  simp [isPlainChar, hgap, h.1.1, h.1.2, h.2]

/-- What is read in a gap, inside of a word, and inside of a comment. -/
theorem wordsFrom_eq {cs : List Char} (h : ∀ c ∈ cs, isUnquoted c = true) :
    wordsFrom .gap [] cs = some (uncommented cs) ∧
    (∀ word, word ≠ [] → (∀ c ∈ word, isWordGap c = false) → word.head? ≠ some '#' →
      wordsFrom .plain word cs = some (uncommented (word ++ cs))) ∧
    wordsFrom .comment [] cs = some (uncommented (cs.dropWhile (· != '\n'))) := by
  induction cs with
  | nil =>
    refine ⟨rfl, fun word hne hword hhash => ?_, rfl⟩
    rw [uncommented_word_append hne hword hhash (by simp)]
    rfl
  | cons c cs ih =>
    rw [List.forall_mem_cons] at h
    obtain ⟨hgap, hplain, hcomment⟩ := ih h.2
    refine ⟨?_, fun word hne hword hhash => ?_, ?_⟩
    · by_cases hc : isWordGap c = true
      · rw [wordsFrom_gap_cons hc, uncommented_gap_cons hc, hgap]
      · rw [Bool.not_eq_true] at hc
        by_cases hhash : c = '#'
        · subst hhash
          rw [uncommented_hash_cons, ← hcomment]
          rfl
        · rw [wordsFrom_gap_plain (isPlainChar_of_isUnquoted h.1 hc) hhash]
          exact hplain [c] (by simp) (by simpa using hc) (by simpa using hhash)
    · by_cases hc : isWordGap c = true
      · rw [wordsFrom_plain_gap (by simpa using hc), wordsFrom_gap_cons hc, hgap,
          uncommented_word_append hne hword hhash (by simpa using hc), uncommented_gap_cons hc]
        rfl
      · rw [Bool.not_eq_true] at hc
        have hlonger : ∀ d ∈ word ++ [c], isWordGap d = false := by
          simpa [or_imp, forall_and] using ⟨hword, hc⟩
        have hhash' : (word ++ [c]).head? ≠ some '#' := by rwa [List.head?_append_of_ne_nil _ hne]
        rw [wordsFrom_plain_cons (isPlainChar_of_isUnquoted h.1 hc),
          hplain _ (by simp) hlonger hhash', List.append_assoc]
        rfl
    · by_cases hnl : c = '\n'
      · subst hnl
        have hdrop : ('\n' :: cs).dropWhile (· != '\n') = '\n' :: cs := rfl
        rw [hdrop, uncommented_gap_cons (by decide), ← hgap]
        rfl
      · have hdrop : (c :: cs).dropWhile (· != '\n') = cs.dropWhile (· != '\n') := by simp [hnl]
        rw [hdrop, ← hcomment, wordsFrom, if_neg hnl]

/-- Gaps part the words of a line as newlines part the lines. -/
theorem gapWords_eq_flatMap (cs : List Char) :
    gapWords cs = (pieces (· == '\n') cs).flatMap gapWords := by
  by_cases h : '\n' ∈ cs
  · obtain ⟨line, rest, hcs, hline⟩ := List.eq_append_cons_of_mem h
    have hshorter : rest.length < cs.length := by
      rw [hcs, List.length_append, List.length_cons]
      omega
    rw [hcs, gapWords_append_cons (by decide), pieces_append hline, List.flatMap_cons,
      gapWords_eq_flatMap rest]
  · rw [pieces_of_not_mem h]
    simp
termination_by cs.length

theorem uncommented_sublist (cs : List Char) : (uncommented cs).Sublist (gapWords cs) := by
  rw [gapWords_eq_flatMap]
  exact List.Sublist.flatMap_right _ fun line _ => List.takeWhile_sublist _

/-- No word is lost iff none begins with `#`. -/
theorem uncommented_eq_gapWords_iff (cs : List Char) :
    uncommented cs = gapWords cs ↔ ∀ w ∈ gapWords cs, w.head? ≠ some '#' := by
  constructor
  · intro h w hw
    rw [← h, uncommented] at hw
    obtain ⟨line, -, hw⟩ := List.mem_flatMap.1 hw
    simpa using List.all_eq_true.1 List.all_takeWhile w hw
  · intro h
    rw [gapWords_eq_flatMap] at h ⊢
    refine List.flatMap_congr fun line hline => ?_
    refine List.takeWhile_eq_self_iff.2 fun w hw => ?_
    simpa using h w (List.mem_flatMap.2 ⟨line, hline, hw⟩)

end HubConsole.Text
