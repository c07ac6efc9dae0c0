import HubConsole.Json.Reader
import HubConsole.Json.Writer
import HubConsole.Proofs.Trim

/-! # What is written as JSON reads back

The written form of a value is the list of its tokens with gaps in between (`Plain.scans`), and the
reader makes the value of them again (`run?_tokens`). So a value reads back from its text, if its
strings are texts and its numbers are written as natural ones (`parse?_write`). -/

namespace HubConsole.Json
open Text

variable {cs rest : List Char} {c : Char} {n : Nat}

/-! ## Strings -/

theorem hexDigit?_hexChar (n : Nat) : hexDigit? (hexChar n) = some (n % 16) := by
  have h : ∀ m < 16, hexDigit? (Nat.digitChar m) = some m := by decide
  exact h _ (Nat.mod_lt n (by decide))

theorem units?_hexDigits (h : n < 0x10000) (rest : List Char) :
    units? ('\\' :: 'u' :: hexDigits 4 n ++ rest) =
      (units? rest).map fun u => (.ofNat n :: u.1, u.2) := by
  have hvalue : hexValue? (hexChar (n / 16 / 16 / 16)) (hexChar (n / 16 / 16)) (hexChar (n / 16))
      (hexChar n) = some n := by
    simp only [hexValue?, hexDigit?_hexChar, bind, pure, Option.bind_some, Option.some.injEq]
    omega
  simp only [hexDigits, List.nil_append, List.cons_append]
  rw [units?, hvalue]
  cases units? rest <;> rfl

theorem ofNat_of_lt (h : c.toNat < 0x20) : CodeUnit.ofNat c.toNat = .char c := by
  rw [CodeUnit.ofNat, if_neg (by omega), if_neg (by omega), Char.ofNat_toNat]

/-- A character that is written as a letter after a backslash. -/
theorem units?_escaped {e : Char} (he : e ≠ 'u') (hc : escaped? e = some c) (rest : List Char) :
    units? ('\\' :: e :: rest) = (units? rest).map fun u => (.char c :: u.1, u.2) := by
  rw [units?]
  · simp only [hc, bind, Option.bind_some]
    cases units? rest <;> rfl
  · intro a b c d tail heq
    exact absurd heq he

/-- An escaped character reads back as itself, whatever follows. -/
theorem units?_escape (c : Char) (rest : List Char) :
    units? (escape c ++ rest) = (units? rest).map fun u => (.char c :: u.1, u.2) := by
  unfold escape
  split
  case h_8 hquote hslash _ _ _ _ _ =>
    -- a control character by its number, or any other character as it is
    split
    · next hlt => rw [units?_hexDigits (by omega), ofNat_of_lt hlt]
    · next hge =>
      change units? (c :: rest) = _
      rw [units?]
      · rw [isControl, if_neg (by simpa using hge)]
      all_goals simp_all
  all_goals exact units?_escaped (by decide) rfl rest

theorem units?_flatMap (cs rest : List Char) :
    units? (cs.flatMap escape ++ '\x22' :: rest) = some (cs.map .char, rest) := by
  induction cs with
  | nil => rfl
  | cons c cs ih => rw [List.flatMap_cons, List.append_assoc, units?_escape, ih]; rfl

theorem text?_map_char (cs : List Char) : text? (cs.map .char) = some cs := by
  induction cs with
  | nil => rfl
  | cons c cs ih => rw [List.map_cons, text?, ih]; rfl

theorem token?_quote (s : String) (rest : List Char) :
    token? (quote s ++ rest) = some (.string (some s), rest) := by
  have hquote : quote s ++ rest = '\x22' :: (s.toList.flatMap escape ++ '\x22' :: rest) := by
    simp [quote]
  rw [hquote, token?, units?_flatMap]
  simp [text?_map_char]

/-! ## Numbers -/

/-- The digits of a number start with a zero only if there are no others. -/
theorem head?_toDigits {n : Nat} (h : 0 < n) : (Nat.toDigits 10 n).head? ≠ some '0' := by
  induction n using Nat.strong_induction_on with
  | _ n ih =>
    rw [Nat.toDigits_eq_if (by decide)]
    split
    · next hlt =>
      have hdigit : ∀ m < 10, 0 < m → [Nat.digitChar m].head? ≠ some '0' := by decide
      exact hdigit n hlt h
    · next hge =>
      rw [List.head?_append_of_ne_nil _ Nat.toDigits_ne_nil]
      exact ih (n / 10) (by omega) (by omega)

/-- Characters that may follow the first digits of a number. -/
def isNumberPart (c : Char) : Bool := c.isDigit || c == '.' || c == 'e' || c == 'E'

/-- A number before this text does not go on in it. -/
def Apart (rest : List Char) : Prop := ∀ c ∈ rest.head?, isNumberPart c = false

theorem digits?_append {ds : List Char} (hne : ds ≠ []) (hds : ds.all Char.isDigit = true)
    (hrest : Apart rest) : digits? (ds ++ rest) = some (ds, rest) := by
  have hall : ∀ c ∈ ds, c.isDigit = true := List.all_eq_true.1 hds
  have hend : ∀ c ∈ rest.head?, c.isDigit = false := by
    intro c hc
    have := hrest c hc
    simp only [isNumberPart, Bool.or_eq_false_iff] at this
    exact this.1.1.1
  unfold digits?
  rw [takeWhile_run hall hend, dropWhile_run hall hend]
  split
  · contradiction
  · rfl

theorem whole?_toDigits (n : Nat) (hrest : Apart rest) :
    whole? (Nat.toDigits 10 n ++ rest) = some (Nat.toDigits 10 n, rest) := by
  rcases Nat.eq_zero_or_pos n with rfl | hn
  · rfl
  · have hdigits := digits?_append Nat.toDigits_ne_nil (Count.all_isDigit_toDigits n) hrest
    unfold whole?
    split
    · next tail heq =>
      have hhead := head?_toDigits hn
      rw [← List.head?_append_of_ne_nil _ Nat.toDigits_ne_nil, heq] at hhead
      exact absurd rfl hhead
    · exact hdigits

theorem unsigned?_toDigits (n : Nat) (hrest : Apart rest) :
    unsigned? (Nat.toDigits 10 n ++ rest) = some (Nat.toDigits 10 n, rest) := by
  have hfraction : fraction? rest = some ([], rest) := by
    unfold fraction?
    split
    · have := hrest '.' rfl
      cases this
    · rfl
  have hexponent : exponent? rest = some ([], rest) := by
    unfold exponent?
    split
    · have := hrest 'e' rfl
      cases this
    · have := hrest 'E' rfl
      cases this
    · rfl
  simp only [unsigned?, whole?_toDigits n hrest, hfraction, hexponent, bind, pure,
    Option.bind_some, List.append_nil]

theorem exists_toDigits_eq_cons (n : Nat) :
    ∃ d ds, Nat.toDigits 10 n = d :: ds ∧ d.isDigit = true := by
  obtain ⟨d, ds, hds⟩ := List.exists_cons_of_ne_nil (Nat.toDigits_ne_nil (n := n) (b := 10))
  exact ⟨d, ds, hds, List.all_eq_true.1 (Count.all_isDigit_toDigits n) d (by simp [hds])⟩

theorem token?_toDigits (n : Nat) (hrest : Apart rest) :
    token? (Nat.toDigits 10 n ++ rest) = some (.number (Nat.toDigits 10 n), rest) := by
  have hread := unsigned?_toDigits n hrest
  obtain ⟨d, ds, hds, hd⟩ := exists_toDigits_eq_cons n
  rw [hds] at hread ⊢
  -- no digit begins any other token
  unfold token?
  split <;> simp_all

theorem isGap_of_isDigit (h : c.isDigit = true) : isGap c = false := by
  refine Bool.eq_false_iff.2 fun hgap => ?_
  simp only [isGap, Bool.or_eq_true, beq_iff_eq] at hgap
  obtain ((rfl | rfl) | rfl) | rfl := hgap <;> exact absurd h (by decide)

/-! ## Tokens of a written value -/

mutual

/-- The tokens of a value as it is written. -/
def tokens : Json → List Token
  | .null => [.null]
  | .bool b => [.bool b]
  | .number literal => [.number literal]
  | .string text => [.string text]
  | .list [] => [.openList, .closeList]
  | .list (v :: vs) => .openList :: tokens v ++ itemTokens vs
  | .object [] => [.openObject, .closeObject]
  | .object ((k, v) :: ms) => .openObject :: .string k :: .colon :: tokens v ++ memberTokens ms

/-- The tokens after the first item of a list. -/
def itemTokens : List Json → List Token
  | [] => [.closeList]
  | v :: vs => .comma :: tokens v ++ itemTokens vs

def memberTokens : List (Option String × Json) → List Token
  | [] => [.closeObject]
  | (k, v) :: ms => .comma :: .string k :: .colon :: tokens v ++ memberTokens ms

end

/-- Values whose strings are texts and whose numbers are natural ones. -/
inductive Plain : Json → Prop
  | null : Plain .null
  | bool (b : Bool) : Plain (.bool b)
  | number (n : Nat) : Plain (.number (Nat.toDigits 10 n))
  | string (s : String) : Plain (.string (some s))
  | list {vs : List Json} (items : ∀ v ∈ vs, Plain v) : Plain (.list vs)
  | object {ms : List (Option String × Json)} (keys : ∀ m ∈ ms, m.1.isSome = true)
      (values : ∀ m ∈ ms, Plain m.2) : Plain (.object ms)

theorem tokens?_of_gap (h : isGap c = true) (rest : List Char) :
    tokens? (c :: rest) = tokens? rest := by
  rw [tokens?, if_pos h]

theorem tokens?_of_token? {t : Token} (hgap : isGap c = false)
    (h : token? (c :: cs) = some (t, rest)) :
    tokens? (c :: cs) = (tokens? rest).map (t :: ·) := by
  rw [tokens?, if_neg (by simp [hgap])]
  split
  · next t' after heq =>
    obtain ⟨rfl, rfl⟩ := Prod.mk.inj (Option.some.inj (heq.symm.trans h))
    rfl
  · next heq =>
    rw [heq] at h
    cases h

theorem tokens?_newLine (depth : Nat) (rest : List Char) :
    tokens? (newLine depth ++ rest) = tokens? rest := by
  have hblanks : ∀ k, tokens? (List.replicate k ' ' ++ rest) = tokens? rest := by
    intro k
    induction k with
    | zero => rfl
    | succ k ih => rw [List.replicate_succ, List.cons_append, tokens?_of_gap rfl, ih]
  rw [newLine, List.cons_append, tokens?_of_gap rfl, hblanks]

theorem tokens?_quote (s : String) (rest : List Char) :
    tokens? (quote s ++ rest) = (tokens? rest).map (.string (some s) :: ·) := by
  exact tokens?_of_token? rfl (token?_quote s rest)

/-- The text of `v` has the tokens of `v`, before any text that does not go on with a number. -/
def Scans (v : Json) : Prop :=
  ∀ depth rest, Apart rest → tokens? (write depth v ++ rest) = (tokens? rest).map (tokens v ++ ·)

/-- The text of a key and its value. -/
theorem Scans.member {v : Json} (hv : Scans v) (s : String) (depth : Nat) (hrest : Apart rest) :
    tokens? (quote s ++ ':' :: ' ' :: (write depth v ++ rest)) =
      (tokens? rest).map ([.string (some s), .colon] ++ tokens v ++ ·) := by
  rw [tokens?_quote, tokens?_of_token? (t := .colon) rfl rfl, tokens?_of_gap rfl,
    hv depth rest hrest, Option.map_map, Option.map_map]
  rfl

theorem apart_writeItems (depth : Nat) (vs : List Json) (rest : List Char) :
    Apart (writeItems depth vs ++ rest) := by
  cases vs with
  | nil => rintro c ⟨⟩; rfl
  | cons v vs => rintro c ⟨⟩; rfl

theorem apart_writeMembers (depth : Nat) (ms : List (Option String × Json)) (rest : List Char) :
    Apart (writeMembers depth ms ++ rest) := by
  cases ms with
  | nil => rintro c ⟨⟩; rfl
  | cons m ms => rintro c ⟨⟩; rfl

theorem tokens?_writeItems {vs : List Json} (h : ∀ v ∈ vs, Scans v) (depth : Nat)
    (rest : List Char) : tokens? (writeItems depth vs ++ ']' :: rest) =
      (tokens? rest).map (itemTokens vs ++ ·) := by
  induction vs with
  | nil =>
    rw [writeItems, tokens?_newLine, tokens?_of_token? (t := .closeList) rfl rfl]
    rfl
  | cons v vs ih =>
    have hv := h v List.mem_cons_self
    have hvs := ih fun w hw => h w (List.mem_cons_of_mem _ hw)
    simp only [writeItems, List.cons_append, List.append_assoc]
    rw [tokens?_of_token? (t := .comma) rfl rfl, tokens?_newLine,
      hv _ _ (apart_writeItems _ _ _), hvs, Option.map_map, Option.map_map]
    simp [itemTokens, Function.comp_def]

theorem tokens?_writeMembers {ms : List (Option String × Json)}
    (hkeys : ∀ m ∈ ms, m.1.isSome = true) (h : ∀ m ∈ ms, Scans m.2) (depth : Nat)
    (rest : List Char) : tokens? (writeMembers depth ms ++ '\x7d' :: rest) =
      (tokens? rest).map (memberTokens ms ++ ·) := by
  induction ms with
  | nil =>
    rw [writeMembers, tokens?_newLine, tokens?_of_token? (t := .closeObject) rfl rfl]
    rfl
  | cons m ms ih =>
    obtain ⟨key, v⟩ := m
    obtain ⟨k, rfl⟩ := Option.isSome_iff_exists.1 (hkeys _ List.mem_cons_self)
    have hv : Scans v := h _ List.mem_cons_self
    have hms := ih (fun w hw => hkeys w (List.mem_cons_of_mem _ hw))
      fun w hw => h w (List.mem_cons_of_mem _ hw)
    simp only [writeMembers, writeString, List.cons_append, List.append_assoc, List.nil_append]
    rw [tokens?_of_token? (t := .comma) rfl rfl, tokens?_newLine,
      hv.member _ _ (apart_writeMembers _ _ _), hms, Option.map_map, Option.map_map]
    simp [memberTokens, Function.comp_def]

theorem scans_list {vs : List Json} (h : ∀ v ∈ vs, Scans v) : Scans (.list vs) := by
  intro depth rest _
  cases vs with
  | nil =>
    change tokens? ('[' :: ']' :: rest) = _
    rw [tokens?_of_token? (t := .openList) rfl rfl, tokens?_of_token? (t := .closeList) rfl rfl,
      Option.map_map]
    rfl
  | cons v vs =>
    have hv := h v List.mem_cons_self
    have hvs : ∀ w ∈ vs, Scans w := fun w hw => h w (List.mem_cons_of_mem _ hw)
    simp only [write, List.cons_append, List.append_assoc, List.nil_append]
    rw [tokens?_of_token? (t := .openList) rfl rfl, tokens?_newLine,
      hv _ _ (apart_writeItems _ _ _), tokens?_writeItems hvs, Option.map_map, Option.map_map]
    simp [tokens, Function.comp_def]

theorem scans_object {ms : List (Option String × Json)} (hkeys : ∀ m ∈ ms, m.1.isSome = true)
    (h : ∀ m ∈ ms, Scans m.2) : Scans (.object ms) := by
  intro depth rest _
  cases ms with
  | nil =>
    change tokens? ('\x7b' :: '\x7d' :: rest) = _
    rw [tokens?_of_token? (t := .openObject) rfl rfl,
      tokens?_of_token? (t := .closeObject) rfl rfl, Option.map_map]
    rfl
  | cons m ms =>
    obtain ⟨key, v⟩ := m
    obtain ⟨k, rfl⟩ := Option.isSome_iff_exists.1 (hkeys _ List.mem_cons_self)
    have hv : Scans v := h _ List.mem_cons_self
    have hms := tokens?_writeMembers (fun w hw => hkeys w (List.mem_cons_of_mem _ hw))
      (fun w hw => h w (List.mem_cons_of_mem _ hw)) depth rest
    simp only [write, writeString, List.cons_append, List.append_assoc, List.nil_append]
    rw [tokens?_of_token? (t := .openObject) rfl rfl, tokens?_newLine,
      hv.member _ _ (apart_writeMembers _ _ _), hms, Option.map_map, Option.map_map]
    simp [tokens, Function.comp_def]

theorem scans_number (n : Nat) : Scans (.number (Nat.toDigits 10 n)) := by
  intro depth rest hrest
  have htoken := token?_toDigits n hrest
  obtain ⟨d, ds, hds, hd⟩ := exists_toDigits_eq_cons n
  rw [write, hds, List.cons_append]
  rw [hds, List.cons_append] at htoken
  exact tokens?_of_token? (isGap_of_isDigit hd) htoken

/-- A plain value is written as its tokens. -/
theorem Plain.scans {v : Json} (h : Plain v) : Scans v := by
  induction h with
  | null =>
    intro depth rest _
    exact tokens?_of_token? (c := 'n') rfl rfl
  | bool b =>
    intro depth rest _
    cases b with
    | false => exact tokens?_of_token? (c := 'f') rfl rfl
    | true => exact tokens?_of_token? (c := 't') rfl rfl
  | number n => exact scans_number n
  | string s => exact fun depth rest _ => tokens?_quote s rest
  | list _ ih => exact scans_list ih
  | object hkeys _ ih => exact scans_object hkeys ih

/-! ## Reading the tokens -/

namespace Reading

/-- The first token of a value does not close a list. -/
theorem exists_tokens_eq_cons (v : Json) : ∃ t ts, tokens v = t :: ts ∧ t ≠ .closeList := by
  unfold tokens
  split <;> exact ⟨_, _, rfl, by simp⟩

theorem run?_firstItem {v : Json} (fs : List Frame) (rest : List Token) :
    run? (firstItem fs) (tokens v ++ rest) = run? (value (.item [] :: fs)) (tokens v ++ rest) := by
  obtain ⟨t, ts, hts, ht⟩ := exists_tokens_eq_cons v
  have hstep : (firstItem fs).step? t = (value (.item [] :: fs)).step? t := by
    cases t <;> simp_all [step?]
  rw [hts, List.cons_append, run?, run?, hstep]

mutual

/-- The reader makes a value of its tokens. -/
theorem run?_tokens (v : Json) (fs : List Frame) (rest : List Token) :
    run? (value fs) (tokens v ++ rest) = run? (give v fs) rest := by
  match v with
  | .null => rfl
  | .bool b => rfl
  | .number literal => rfl
  | .string text => rfl
  | .list [] => rfl
  | .list (v :: vs) =>
    simp only [tokens, List.cons_append, List.append_assoc]
    change run? (firstItem fs) _ = _
    rw [run?_firstItem, run?_tokens v]
    exact run?_itemTokens vs [v] fs rest
  | .object [] => rfl
  | .object ((k, v) :: ms) =>
    simp only [tokens, List.cons_append, List.append_assoc]
    change run? (value (.member [] k :: fs)) _ = _
    rw [run?_tokens v]
    exact run?_memberTokens ms [(k, v)] fs rest

theorem run?_itemTokens (vs before : List Json) (fs : List Frame) (rest : List Token) :
    run? (afterItem before fs) (itemTokens vs ++ rest) =
      run? (give (.list (before ++ vs)) fs) rest := by
  match vs with
  | [] => rw [List.append_nil]; rfl
  | v :: vs =>
    simp only [itemTokens, List.cons_append, List.append_assoc]
    change run? (value (.item before :: fs)) _ = _
    rw [run?_tokens v]
    change run? (afterItem (before ++ [v]) fs) _ = _
    rw [run?_itemTokens vs, List.append_assoc]
    rfl

theorem run?_memberTokens (ms before : List (Option String × Json)) (fs : List Frame)
    (rest : List Token) : run? (afterMember before fs) (memberTokens ms ++ rest) =
      run? (give (.object (before ++ ms)) fs) rest := by
  match ms with
  | [] => rw [List.append_nil]; rfl
  | (k, v) :: ms =>
    simp only [memberTokens, List.cons_append, List.append_assoc]
    change run? (value (.member before k :: fs)) _ = _
    rw [run?_tokens v]
    change run? (afterMember (before ++ [(k, v)]) fs) _ = _
    rw [run?_memberTokens ms, List.append_assoc]
    rfl

end

end Reading

/-- A plain value reads back from its text. -/
theorem parse?_write {v : Json} (h : Plain v) : parse? (write 0 v) = some v := by
  have htokens : tokens? (write 0 v) = some (tokens v) := by
    have hscan := h.scans 0 [] (by rintro c ⟨⟩)
    rw [List.append_nil] at hscan
    rw [hscan]
    simp [tokens?]
  have hrun := Reading.run?_tokens v [] []
  rw [List.append_nil] at hrun
  simp only [parse?, htokens, bind, Option.bind_some, hrun]
  rfl

-- a string that is no text is written as `null`, so it does not read back
example : parse? (write 0 (.list [.string none, .string (some "é\t\"")])) =
    some (.list [.null, .string (some "é\t\"")]) := by cbv

end HubConsole.Json
