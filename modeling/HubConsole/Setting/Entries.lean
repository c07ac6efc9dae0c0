import HubConsole.Setting.Definition

/-! # Stored values

The values of settings by the id of their scope and their name, in the order of the ids and then of
the names. There is at most one value for each id and name. -/

namespace HubConsole.Setting

structure Entry where
  scope : HubId
  name : String
  value : String
deriving DecidableEq, Repr

namespace Entry

def isAt (e : Entry) (scope : HubId) (name : String) : Bool := e.scope == scope && e.name == name

/-- Order by scope, then by name. -/
def Before (a b : Entry) : Prop := a.scope < b.scope ∨ (a.scope = b.scope ∧ a.name < b.name)

instance : DecidableRel Before := fun _ _ => inferInstanceAs (Decidable (_ ∨ _))

variable {a b c : Entry}

theorem Before.trans (h : Before a b) (k : Before b c) : Before a c := by
  rcases h with h | ⟨h, h'⟩ <;> rcases k with k | ⟨k, k'⟩
  · exact .inl (UInt64.lt_trans h k)
  · exact .inl (k ▸ h)
  · exact .inl (h ▸ k)
  · exact .inr ⟨h.trans k, String.lt_trans h' k'⟩

theorem Before.ne (h : Before a b) : a.isAt b.scope b.name = false := by
  rcases h with h | ⟨-, h⟩
  · have : a.scope ≠ b.scope := fun e => UInt64.lt_irrefl _ (e ▸ h)
    simp [isAt, this]
  · have : a.name ≠ b.name := fun e => String.lt_irrefl _ (e ▸ h)
    simp [isAt, this]

theorem before_or (h : a.isAt b.scope b.name = false) : Before a b ∨ Before b a := by
  by_cases hs : a.scope = b.scope
  · have hn : a.name ≠ b.name := by simpa [isAt, hs] using h
    rcases String.le_total a.name b.name with hle | hle
    · have : ¬ b.name < a.name := fun k => String.not_lt.2 hle k
      by_cases hlt : a.name < b.name
      · exact .inl (.inr ⟨hs, hlt⟩)
      · exact absurd (String.le_antisymm hle (String.not_lt.1 hlt)) hn
    · by_cases hlt : b.name < a.name
      · exact .inr (.inr ⟨hs.symm, hlt⟩)
      · exact absurd (String.le_antisymm (String.not_lt.1 hlt) hle) hn
  · exact (UInt64.lt_or_lt_of_ne hs).imp .inl .inl

end Entry

def Sorted (es : List Entry) : Prop := es.Pairwise Entry.Before

/-- The entries with `e` in the place of one for the same id and name, if there is one. -/
def insertEntry (e : Entry) : List Entry → List Entry
  | [] => [e]
  | f :: fs =>
    if f.isAt e.scope e.name then e :: fs
    else if Entry.Before e f then e :: f :: fs
    else f :: insertEntry e fs

theorem mem_insertEntry {e f : Entry} {es : List Entry} (h : f ∈ insertEntry e es) :
    f = e ∨ f ∈ es := by
  induction es with
  | nil => simpa [insertEntry] using h
  | cons g es ih =>
    unfold insertEntry at h
    split at h
    · rcases List.mem_cons.1 h with h | h
      · exact .inl h
      · exact .inr (List.mem_cons_of_mem _ h)
    · split at h
      · simpa using h
      · rcases List.mem_cons.1 h with h | h
        · exact .inr (h ▸ List.mem_cons_self)
        · exact (ih h).imp id (List.mem_cons_of_mem _)

theorem Sorted.insertEntry {e : Entry} {es : List Entry} (h : Sorted es) :
    Sorted (Setting.insertEntry e es) := by
  induction es with
  | nil => simp [Setting.insertEntry, Sorted]
  | cons f es ih =>
    obtain ⟨hf, hes⟩ := List.pairwise_cons.1 h
    unfold Setting.insertEntry
    split
    · next hat =>
      have same : f.scope = e.scope ∧ f.name = e.name := by simpa [Entry.isAt] using hat
      refine List.pairwise_cons.2 ⟨fun g hg => ?_, hes⟩
      have := hf g hg
      simpa [Entry.Before, same.1, same.2] using this
    · next hat =>
      split
      · next hlt =>
        refine List.pairwise_cons.2 ⟨fun g hg => ?_, h⟩
        rcases List.mem_cons.1 hg with rfl | hg
        · exact hlt
        · exact hlt.trans (hf g hg)
      · next hlt =>
        refine List.pairwise_cons.2 ⟨fun g hg => ?_, ih hes⟩
        rcases mem_insertEntry hg with rfl | hg
        · exact (Entry.before_or (by simpa using hat)).resolve_right hlt
        · exact hf g hg

def eraseEntry (scope : HubId) (name : String) (es : List Entry) : List Entry :=
  es.filter fun e => !e.isAt scope name

theorem Sorted.eraseEntry {scope : HubId} {name : String} {es : List Entry} (h : Sorted es) :
    Sorted (Setting.eraseEntry scope name es) := List.Pairwise.filter _ h

def findEntry? (scope : HubId) (name : String) (es : List Entry) : Option String :=
  (es.find? fun e => e.isAt scope name).map Entry.value

variable {e : Entry} {es : List Entry} {scope : HubId} {name : String}

theorem findEntry?_cons (e : Entry) (es : List Entry) : findEntry? scope name (e :: es) =
    if e.isAt scope name then some e.value else findEntry? scope name es := by
  unfold findEntry?
  rw [List.find?_cons]
  split <;> simp_all

theorem findEntry?_insertEntry (e : Entry) (es : List Entry) :
    findEntry? scope name (insertEntry e es) =
      if e.isAt scope name then some e.value else findEntry? scope name es := by
  induction es with
  | nil => exact findEntry?_cons e []
  | cons f fs ih =>
    unfold insertEntry
    split
    · next hat =>
      have same : f.isAt scope name = e.isAt scope name := by
        have : f.scope = e.scope ∧ f.name = e.name := by simpa [Entry.isAt] using hat
        rw [Entry.isAt, Entry.isAt, this.1, this.2]
      rw [findEntry?_cons, findEntry?_cons, same]
      split <;> rfl
    · next hat =>
      split
      · rw [findEntry?_cons]
      · rw [findEntry?_cons, ih, findEntry?_cons]
        by_cases hf : f.isAt scope name = true
        · have hne : e.isAt scope name = false := by
            refine Bool.eq_false_iff.2 fun he => hat ?_
            simp only [Entry.isAt, Bool.and_eq_true, beq_iff_eq] at hf he ⊢
            exact ⟨hf.1.trans he.1.symm, hf.2.trans he.2.symm⟩
          rw [if_pos hf, if_neg (by simp [hne]), if_pos hf]
        · rw [if_neg hf, if_neg hf]

theorem findEntry?_eraseEntry (scope' : HubId) (name' : String) (es : List Entry) :
    findEntry? scope name (eraseEntry scope' name' es) =
      if scope' = scope ∧ name' = name then none else findEntry? scope name es := by
  induction es with
  | nil => simp [eraseEntry, findEntry?]
  | cons f fs ih =>
    unfold eraseEntry at ih ⊢
    rw [List.filter_cons]
    by_cases hf : f.isAt scope' name' = true
    · have hf' : f.scope = scope' ∧ f.name = name' := by simpa [Entry.isAt] using hf
      rw [if_neg (by simp [hf]), ih, findEntry?_cons]
      by_cases hs : scope' = scope ∧ name' = name
      · rw [if_pos hs, if_pos hs]
      · have hne : ¬ f.isAt scope name = true := by
          simpa [Entry.isAt, hf'.1, hf'.2] using hs
        rw [if_neg hs, if_neg hs, if_neg hne]
    · rw [if_pos (by simp [hf]), findEntry?_cons, ih, findEntry?_cons]
      by_cases hs : scope' = scope ∧ name' = name
      · rw [if_pos hs, if_pos hs, if_neg (by rw [← hs.1, ← hs.2]; exact hf)]
      · rw [if_neg hs, if_neg hs]

/-- In ordered entries each one is found under its id and name. -/
theorem Sorted.mem_iff (h : Sorted es) : e ∈ es ↔ findEntry? e.scope e.name es = some e.value := by
  induction es with
  | nil =>
    constructor
    · intro he
      cases he
    · intro he
      cases he
  | cons f fs ih =>
    obtain ⟨hf, hfs⟩ := List.pairwise_cons.1 h
    rw [List.mem_cons, findEntry?_cons, ih hfs]
    constructor
    · rintro (rfl | he)
      · simp [Entry.isAt]
      · rw [if_neg (by simp [(hf e ((ih hfs).2 he)).ne]), he]
    · split
      · next hat =>
        intro hv
        have hk : f.scope = e.scope ∧ f.name = e.name := by simpa [Entry.isAt] using hat
        left
        cases e; cases f
        simp_all
      · exact .inr

end HubConsole.Setting
