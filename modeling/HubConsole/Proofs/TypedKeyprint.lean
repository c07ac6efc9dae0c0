import HubConsole.Proofs.AddressGrammar

/-!
# What becomes of a typed keyprint

`Address.pinMark` announces a keyprint. A text that is read as an address has the mark in one of two
places: after the slash, and then the address is pinned, or within the host, which may have any
characters but blanks, colons, slashes and brackets. In the second place it pins nothing. So a
keyprint is read or refused wherever a slash or a port stands before it, and taken for a part of the
host where neither does (`parse_unslashed`).
-/

namespace HubConsole
open Text Result

/-! ### Words within a text -/

namespace Text
variable {c : Char} {w u xs ys cs : List Char}

/-- A word stands in an append as in one of its parts, if the second part cannot go on with it. -/
theorem infix_append_iff_of_head (h : ∀ c ∈ ys.head?, c ∉ w) :
    w <:+: xs ++ ys ↔ w <:+: xs ∨ w <:+: ys := by
  rw [List.infix_append_iff]
  refine ⟨?_, fun hw => hw.elim .inl fun hw => .inr (.inl hw)⟩
  rintro (hw | hw | ⟨l₁, l₂, rfl, hl₁, hl₂⟩)
  · exact .inl hw
  · exact .inr hw
  · cases l₂ with
    | nil => exact .inl (by simpa using hl₁.isInfix)
    | cons d l₂ =>
      obtain ⟨rest, rfl⟩ := hl₂
      exact absurd (by simp) (h d rfl)

/-- A text without the first character of a word has no part in it. -/
theorem infix_append_iff_of_not_mem (h : c ∉ xs) : c :: u <:+: xs ++ ys ↔ c :: u <:+: ys := by
  induction xs with
  | nil => rfl
  | cons d xs ih =>
    obtain ⟨hd, hxs⟩ := not_or.1 (mt List.mem_cons.2 h)
    rw [List.cons_append, List.infix_cons_iff, ih hxs]
    refine or_iff_right fun hstart => ?_
    exact hd (List.cons_prefix_cons.1 hstart).1

/-- What is cut off at the ends has no part in a word without blanks. -/
theorem infix_trim_iff (hc : isBlank c = false) (hu : ∀ d ∈ u, isBlank d = false) :
    c :: u <:+: trim cs ↔ c :: u <:+: cs := by
  have hstart : c :: u <:+: trimStart cs ↔ c :: u <:+: cs := by
    have hlead : c ∉ cs.takeWhile isBlank := fun hmem => by
      have hblank := List.all_eq_true.1 List.all_takeWhile c hmem
      rw [hc] at hblank
      cases hblank
    rw [← infix_append_iff_of_not_mem hlead, trimStart, List.takeWhile_append_dropWhile]
  have hw : ∀ d ∈ c :: u, isBlank d = false := by
    rintro d (_ | ⟨_, hd⟩)
    · exact hc
    · exact hu d hd
  obtain ⟨tail, htail, hblank⟩ : ∃ tail, trimStart cs = trim cs ++ tail ∧
      ∀ d ∈ tail, isBlank d = true :=
    ⟨(trimStart cs).rtakeWhile isBlank, (List.rdropWhile_append_rtakeWhile ..).symm,
      fun d hd => List.mem_rtakeWhile_imp hd⟩
  have hapart : ∀ d ∈ tail, d ∉ c :: u := fun d hd hmem => by
    have hd := hblank d hd
    rw [hw d hmem] at hd
    cases hd
  rw [← hstart, htail, infix_append_iff_of_head fun d hd => hapart d (List.mem_of_mem_head? hd)]
  refine (or_iff_left fun hword => ?_).symm
  exact hapart c (hword.subset List.mem_cons_self) List.mem_cons_self

end Text

namespace Address

/-- What announces a keyprint. -/
def pinMark : List Char := ['?', 'k', 'p', '=']

theorem isHostChar_of_mem_pinMark : ∀ c ∈ pinMark, isHostChar c = true :=
  List.all_eq_true.1 (by decide)

theorem isBlank_of_isHostChar {c : Char} (h : isHostChar c = true) : isBlank c = false :=
  (isHostChar_iff.1 h).1

/-- Neither a scheme nor a port has a question mark. -/
theorem question_not_mem_of_class {p : Char → Bool} {cs : List Char} (h : ∀ c ∈ cs, p c = true)
    (hp : p '?' = false) : '?' ∉ cs := fun hmem => by
  rw [h '?' hmem] at hp
  cases hp

theorem question_not_mem_schemeText {letters? : Option (List Char)} (h : IsScheme letters?) :
    '?' ∉ schemeText letters? := by
  cases letters? with
  | none => exact List.not_mem_nil
  | some letters =>
    have hletters := question_not_mem_of_class (h letters rfl).2 (by decide)
    show '?' ∉ letters ++ "://".toList
    rw [List.mem_append]
    exact not_or.2 ⟨hletters, by decide⟩

theorem question_not_mem_portText {digits? : Option (List Char)} (h : IsPort digits?) :
    '?' ∉ portText digits? := by
  cases digits? with
  | none => exact List.not_mem_nil
  | some digits =>
    have hdigits := question_not_mem_of_class (h digits rfl).2 (by decide)
    show '?' ∉ ':' :: digits
    rw [List.mem_cons]
    exact not_or.2 ⟨by decide, hdigits⟩

namespace Tail

theorem mark_iff {t : Tail} : pinMark <:+: t.text ↔ t.token? ≠ none := by
  cases t with
  | nothing => decide
  | slash => decide
  | keyprint labelled token =>
    have hmark : pinMark <:+: (keyprint labelled token).text :=
      ⟨['/'], label labelled ++ token, rfl⟩
    exact iff_of_true hmark (by simp [token?])

end Tail

namespace Reading
variable {r : Reading} {s : String}

/-- The mark stands in the host or before a keyprint. -/
theorem Shaped.mark_iff (h : r.Shaped) :
    pinMark <:+: r.text ↔ r.tail.token? ≠ none ∨ pinMark <:+: r.host := by
  have hslash : ∀ c ∈ r.tail.text.head?, c = '/' :=
    head?_of_keyprintText? (Tail.keyprintText?_text h.tail)
  have hend : ∀ c ∈ (portText r.digits ++ r.tail.text).head?, c ∉ pinMark := by
    intro c hc hmark
    have hstop := (ends_host h.digits hslash).1 c hc
    rw [isHostChar_of_mem_pinMark c hmark] at hstop
    cases hstop
  have hscheme : pinMark <:+: r.text ↔
      pinMark <:+: r.host ++ (portText r.digits ++ r.tail.text) :=
    infix_append_iff_of_not_mem (question_not_mem_schemeText h.letters)
  have hport : pinMark <:+: portText r.digits ++ r.tail.text ↔ pinMark <:+: r.tail.text :=
    infix_append_iff_of_not_mem (question_not_mem_portText h.digits)
  rw [hscheme, infix_append_iff_of_head hend, hport, Tail.mark_iff, or_comm]

theorem Of.mark_iff (h : r.Of s) :
    pinMark <:+: s.toList ↔ r.tail.token? ≠ none ∨ pinMark <:+: r.host := by
  have htrim : pinMark <:+: trim s.toList ↔ pinMark <:+: s.toList :=
    infix_trim_iff (by decide) fun d hd =>
      isBlank_of_isHostChar (isHostChar_of_mem_pinMark d (List.mem_cons_of_mem _ hd))
  rw [← htrim, ← h.text, h.shaped.mark_iff]

theorem Names.keyprint_iff {a : Address} (h : r.Names a) :
    a.keyprint ≠ none ↔ r.tail.token? ≠ none := by
  refine ⟨fun ha htoken => ha (h.no_keyprint htoken), fun htoken => ?_⟩
  obtain ⟨token, htoken⟩ := Option.ne_none_iff_exists'.1 htoken
  obtain ⟨k, hk, -⟩ := h.keyprint token htoken
  rw [Option.mem_def.1 hk]
  exact Option.some_ne_none k

/-- What is read as an address names it by a reading. -/
theorem exists_of_parse {a : Address} (h : parse s = .ok a) : ∃ r : Reading, r.Of s ∧ r.Names a := by
  by_cases hr : ∃ r : Reading, r.Of s ∧ r.Known
  · obtain ⟨r, hr, hknown⟩ := hr
    by_cases hperm : r.Permitted
    · obtain ⟨b, hb, hnames⟩ := hr.exists_names hknown hperm
      rw [hb] at h
      exact ⟨r, hr, Except.ok.inj h ▸ hnames⟩
    · rw [hr.parse_of_not_permitted hknown hperm] at h
      cases h
  · rw [Of.parse_of_none hr] at h
    cases h

end Reading

/-- A text that is read as an address has the mark of a keyprint iff the address is pinned or has the
mark in its host. So a typed keyprint pins the address, unless all of it has gone into the host. -/
theorem mark_iff_pinned_or_in_host {s : String} {a : Address} (h : parse s = .ok a) :
    pinMark <:+: s.toList ↔ a.keyprint ≠ none ∨ pinMark <:+: a.host.toList := by
  obtain ⟨r, hr, hnames⟩ := Reading.exists_of_parse h
  rw [hr.mark_iff, hnames.keyprint_iff, hnames.host]

/-- The mark in the host does not keep one after the slash from pinning. -/
theorem mark_iff_pinned_or_in_host_both :
    let s := "adcs://hub?kp=1/?kp=AAAAAAAAAAAAAAAAAAAAAAAAAAAAAAAAAAAAAAAAAAAAAAAAAAAA"
    let a : Address := ⟨.adcs, "hub?kp=1", 411, some ⟨List.replicate 32 0, rfl⟩⟩
    parse s = .ok a ∧
      (pinMark <:+: s.toList ↔ a.keyprint ≠ none ∨ pinMark <:+: a.host.toList) := by
  intro s a
  have hread : parse s = .ok a := by decide +kernel
  exact ⟨hread, mark_iff_pinned_or_in_host hread⟩

/-! ### Without the slash -/

/-- A keyprint that stands right after the host. -/
def unslashed (p : Protocol) (host token : List Char) : String :=
  String.ofList (p.scheme.toList ++ "://".toList ++ (host ++ pinMark ++ token))

theorem isHostChar_of_mem_unslashed {host token : List Char}
    (hhost : ∀ c ∈ host, isHostChar c = true) (htoken : ∀ c ∈ token, isHostChar c = true) :
    ∀ c ∈ host ++ pinMark ++ token, isHostChar c = true := by
  rw [List.forall_mem_append, List.forall_mem_append]
  exact ⟨⟨hhost, isHostChar_of_mem_pinMark⟩, htoken⟩

theorem trim_unslashed {p : Protocol} {host token : List Char}
    (hhost : ∀ c ∈ host, isHostChar c = true) (htoken : ∀ c ∈ token, isHostChar c = true) :
    trim (unslashed p host token).toList = (unslashed p host token).toList := by
  have hslashes : ("://".toList.all fun c => !isBlank c) = true := by decide
  refine trim_eq_self_of_forall ?_
  rw [unslashed, String.toList_ofList, List.forall_mem_append, List.forall_mem_append]
  refine ⟨⟨fun c hc => ?_, fun c hc => ?_⟩, fun c hc => ?_⟩
  · exact isBlank_of_isAlpha (isAlpha_of_mem_scheme p c hc)
  · simpa using List.all_eq_true.1 hslashes c hc
  · exact isBlank_of_isHostChar (isHostChar_of_mem_unslashed hhost htoken c hc)

/-- Without a slash before it, what should pin the address goes into its host. -/
theorem parse_unslashed (p : Protocol) {host token : List Char}
    (hhost : ∀ c ∈ host, isHostChar c = true) (htoken : ∀ c ∈ token, isHostChar c = true) :
    parse (unslashed p host token) =
      .ok ⟨p, String.ofList (host ++ pinMark ++ token), 411, none⟩ := by
  have htext : (unslashed p host token).toList = schemeText (some p.scheme.toList) ++
      ((host ++ pinMark ++ token) ++ (portText none ++ [])) := by
    simp [unslashed, schemeText, portText]
  have hne : host ++ pinMark ++ token ≠ [] := by simp [pinMark]
  have hport : IsPort none := by
    rintro _ ⟨⟩
  have hparts := ofText?_of_parts (isScheme_scheme p) hne
    (isHostChar_of_mem_unslashed hhost htoken) hport
    (show keyprintText? [] = some none from rfl)
  rw [parse, trim_unslashed hhost htoken, htext, hparts]
  show ofParts _ = _
  simp only [ofParts, protocolOf, ofScheme?_scheme]
  rfl

/-- A text with the mark of a keyprint can be read as an address that nothing pins. -/
theorem not_pinned_of_mark :
    ¬ ∀ s a, parse s = .ok a → pinMark <:+: s.toList → a.keyprint ≠ none := by
  intro h
  let token := List.replicate 52 'A'
  have hhost : ∀ c ∈ "x.example".toList, isHostChar c = true := List.all_eq_true.1 (by decide)
  have htoken : ∀ c ∈ token, isHostChar c = true := List.all_eq_true.1 (by decide)
  have hread := parse_unslashed .adcs hhost htoken
  have hmark : pinMark <:+: (unslashed .adcs "x.example".toList token).toList := by
    rw [unslashed, String.toList_ofList]
    exact ⟨"adcs://x.example".toList, token, rfl⟩
  exact h _ _ hread hmark rfl

/-- After a port the slash is missed. -/
example : parse "adcs://x.example:5000?kp=AAAAAAAAAAAAAAAAAAAAAAAAAAAAAAAAAAAAAAAAAAAAAAAAAAAA" =
    .error .malformed := by
  decide +kernel

end Address
end HubConsole
