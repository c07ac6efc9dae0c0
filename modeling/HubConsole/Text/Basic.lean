/-! # Text as a list of characters

Cutting and comparing texts. The functions on `List Char` do the work and are what lemmas speak
of; those on `String` are the same functions through `String.toList`. Lengths and positions are
counted in the bytes of the UTF-8 encoding, orders are those of the code points. -/

namespace HubConsole.Text

def byteLength : List Char → Nat
  | [] => 0
  | c :: cs => c.utf8Size + byteLength cs

theorem utf8ByteSize_eq_byteLength (s : String) : s.utf8ByteSize = byteLength s.toList := by
  have hlist : ∀ cs : List Char, (String.ofList cs).utf8ByteSize = byteLength cs := by
    intro cs
    induction cs with
    | nil => rfl
    | cons c cs ih => simp [byteLength, String.ofList_cons, ih]
  have h := hlist s.toList
  rwa [String.ofList_toList] at h

/-- Every character takes at least one byte. -/
theorem length_le_byteLength (cs : List Char) : cs.length ≤ byteLength cs := by
  induction cs with
  | nil => simp
  | cons c cs ih =>
    have hc := c.utf8Size_pos
    rw [List.length_cons, byteLength]
    omega

/-- The characters of ASCII take one byte each. -/
theorem byteLength_of_ascii {cs : List Char} (h : ∀ c ∈ cs, c.toNat < 128) :
    byteLength cs = cs.length := by
  induction cs with
  | nil => rfl
  | cons c cs ih =>
    rw [List.forall_mem_cons] at h
    have hc : c.utf8Size = 1 := by
      have hlt := h.1
      exact Char.utf8Size_eq_one_iff.2 (by show c.toNat ≤ 127; omega)
    rw [byteLength, ih h.2, hc, List.length_cons, Nat.add_comm]

/-- The pieces between separators: one more than there are separators, empty ones included. -/
def pieces (sep : Char → Bool) : List Char → List (List Char)
  | [] => [[]]
  | c :: cs =>
    if sep c then [] :: pieces sep cs
    else match pieces sep cs with
      | p :: ps => (c :: p) :: ps
      | [] => [[c]]

theorem pieces_ne_nil (sep : Char → Bool) (cs : List Char) : pieces sep cs ≠ [] := by
  cases cs with
  | nil => simp [pieces]
  | cons c cs =>
    unfold pieces
    split
    · simp
    · split <;> simp

/-- The pieces are those of the library's function on lists. -/
theorem pieces_eq_splitOnP (sep : Char → Bool) (cs : List Char) :
    pieces sep cs = cs.splitOnP sep := by
  induction cs with
  | nil => simp [pieces]
  | cons c cs ih =>
    rw [pieces, List.splitOnP_cons_eq_if_modifyHead, ← ih]
    cases h : pieces sep cs with
    | nil => exact absurd h (pieces_ne_nil sep cs)
    | cons p ps => rfl

/-- A separator parts the pieces before it from those after it. -/
theorem pieces_append_cons {sep : Char → Bool} {c : Char} (hc : sep c = true) (a b : List Char) :
    pieces sep (a ++ c :: b) = pieces sep a ++ pieces sep b := by
  simp only [pieces_eq_splitOnP]
  exact List.splitOnP_append_cons a b hc

theorem pieces_eq_singleton {sep : Char → Bool} {cs : List Char} (h : ∀ c ∈ cs, sep c = false) :
    pieces sep cs = [cs] := by
  rw [pieces_eq_splitOnP, List.splitOnP_eq_singleton h]

theorem beq_eq_false_of_not_mem {sep : Char} {cs : List Char} (h : sep ∉ cs) :
    ∀ c ∈ cs, (c == sep) = false := by
  intro c hc
  rw [beq_eq_false_iff_ne]
  rintro rfl
  exact h hc

theorem pieces_of_not_mem {sep : Char} {p : List Char} (hp : sep ∉ p) :
    pieces (· == sep) p = [p] :=
  pieces_eq_singleton (beq_eq_false_of_not_mem hp)

theorem pieces_append {sep : Char} {p cs : List Char} (hp : sep ∉ p) :
    pieces (· == sep) (p ++ sep :: cs) = p :: pieces (· == sep) cs := by
  rw [pieces_append_cons (by simp), pieces_of_not_mem hp, List.singleton_append]

def cutFirst? (sep : Char) : List Char → Option (List Char × List Char)
  | [] => none
  | c :: cs =>
    if c = sep then some ([], cs)
    else (cutFirst? sep cs).map fun p => (c :: p.1, p.2)

theorem eq_of_cutFirst? {sep : Char} {cs a b : List Char} (h : cutFirst? sep cs = some (a, b)) :
    cs = a ++ sep :: b := by
  induction cs generalizing a with
  | nil => simp [cutFirst?] at h
  | cons c cs ih =>
    unfold cutFirst? at h
    split at h
    · next hc => obtain ⟨rfl, rfl⟩ := h; simp [hc]
    · obtain ⟨⟨p, q⟩, hp, hq⟩ := Option.map_eq_some_iff.1 h
      obtain ⟨rfl, rfl⟩ := hq
      simp [ih hp]

theorem cutFirst?_append {sep : Char} {a b : List Char} (h : sep ∉ a) :
    cutFirst? sep (a ++ sep :: b) = some (a, b) := by
  induction a with
  | nil => simp [cutFirst?]
  | cons c a ih =>
    rw [List.mem_cons, not_or] at h
    simp [cutFirst?, Ne.symm h.1, ih h.2]

theorem cutFirst?_eq_none_iff {sep : Char} {cs : List Char} :
    cutFirst? sep cs = none ↔ sep ∉ cs := by
  induction cs with
  | nil => simp [cutFirst?]
  | cons c cs ih =>
    by_cases h : c = sep
    · simp [cutFirst?, h]
    · simp [cutFirst?, h, ih, Ne.symm h]

theorem not_mem_of_cutFirst? {sep : Char} {cs a b : List Char}
    (h : cutFirst? sep cs = some (a, b)) : sep ∉ a := by
  induction cs generalizing a with
  | nil => cases h
  | cons c cs ih =>
    unfold cutFirst? at h
    split at h
    · obtain ⟨rfl, rfl⟩ := Prod.mk.inj (Option.some.inj h)
      exact List.not_mem_nil
    · next hc =>
      obtain ⟨⟨p, q⟩, hp, hpq⟩ := Option.map_eq_some_iff.1 h
      obtain ⟨rfl, rfl⟩ := Prod.mk.inj hpq
      rw [List.mem_cons, not_or]
      exact ⟨Ne.symm hc, ih hp⟩

/-- The text up to and including the last character that satisfies `p`, and the rest. -/
def cutAfterLast (p : Char → Bool) (cs : List Char) : List Char × List Char :=
  let rest := cs.reverse.takeWhile (fun c => !p c)
  (cs.take (cs.length - rest.length), rest.reverse)

def dropLead? : List Char → List Char → Option (List Char)
  | [], cs => some cs
  | _ :: _, [] => none
  | a :: lead, c :: cs => if a = c then dropLead? lead cs else none

theorem dropLead?_eq_some_iff {lead cs rest : List Char} :
    dropLead? lead cs = some rest ↔ cs = lead ++ rest := by
  induction lead generalizing cs with
  | nil => simp [dropLead?]
  | cons a lead ih =>
    cases cs with
    | nil => simp [dropLead?]
    | cons c cs =>
      by_cases h : a = c
      · simp [dropLead?, h, ih]
      · simp [dropLead?, h, Ne.symm h]

def startsWith (s lead : String) : Bool := lead.toList.isPrefixOf s.toList

def occursIn (c : Char) (s : String) : Bool := s.toList.contains c

def padRight (width : Nat) (s : String) : String :=
  s ++ String.ofList (List.replicate (width - s.toList.length) ' ')

theorem padRight_eq_rightpad (width : Nat) (s : String) :
    padRight width s = String.ofList (s.toList.rightpad width ' ') := by
  rw [padRight, List.rightpad, String.ofList_append, String.ofList_toList]

def joinWith (sep : String) : List String → String
  | [] => ""
  | [s] => s
  | s :: t :: rest => s ++ sep ++ joinWith sep (t :: rest)

theorem joinWith_eq_intercalate (sep : String) (texts : List String) :
    joinWith sep texts = sep.intercalate texts := by
  induction texts with
  | nil => rw [joinWith, String.intercalate_nil]
  | cons s texts ih =>
    cases texts with
    | nil => rw [joinWith, String.intercalate_singleton]
    | cons t texts => rw [joinWith, ih, String.intercalate_cons_cons]

end HubConsole.Text
