import HubConsole.Proofs.AddressText

/-! # The grammar of addresses

`Address.Reading` says how a text is put together from the parts of an address, what may be left out
included. The reader takes a text apart as the only reading of its shape (`ofText?_eq_some_iff`,
`Reading.text_inj`); what the parts may be is judged after that, the keyprint last. -/

namespace HubConsole
open Text Result

namespace Address

/-- What stands after the port. -/
inductive Tail where
  | nothing
  | slash
  | keyprint (labelled : Bool) (token : List Char)
deriving DecidableEq

namespace Tail

/-- What may stand before a keyprint. -/
def label : Bool → List Char
  | true => "SHA256/".toList
  | false => []

def text : Tail → List Char
  | nothing => []
  | slash => ['/']
  | keyprint labelled token => '/' :: '?' :: 'k' :: 'p' :: '=' :: (label labelled ++ token)

def token? : Tail → Option (List Char)
  | keyprint _ token => some token
  | _ => none

/-- The token has the length and the characters of a keyprint. -/
def Shaped (t : Tail) : Prop :=
  ∀ token ∈ t.token?, token.length = 52 ∧ ∀ c ∈ token, (Base32.digit? c).isSome = true

end Tail

/-- A text of an address with what its parts are. -/
structure Reading where
  letters : Option (List Char)
  host : List Char
  digits : Option (List Char)
  tail : Tail
deriving DecidableEq

namespace Reading

def text (r : Reading) : List Char :=
  schemeText r.letters ++ (r.host ++ (portText r.digits ++ r.tail.text))

/-- Each part consists of the characters that it may have. -/
structure Shaped (r : Reading) : Prop where
  letters : IsScheme r.letters
  host_ne : r.host ≠ []
  host : ∀ c ∈ r.host, isBlank c = false ∧ c ∉ ":/<>()[]".toList
  digits : IsPort r.digits
  tail : r.tail.Shaped

/-- The text is that of the reading, with blanks around it. -/
structure Of (r : Reading) (s : String) : Prop where
  shaped : r.Shaped
  text : r.text = trim s.toList

/-- The scheme in lower case. -/
def scheme (r : Reading) : String :=
  r.letters.elim "dchub" fun letters => lowerAsciiAll (String.ofList letters)

def port (r : Reading) : Nat := r.digits.elim 411 fun digits => Nat.ofDigitChars 10 digits 0

/-- The scheme is that of a protocol, and the port is a number that a port can have. -/
structure Known (r : Reading) : Prop where
  scheme : r.scheme ∈ ["dchub", "nmdc", "nmdcs", "adc", "adcs"]
  port_pos : 1 ≤ r.port
  port_le : r.port ≤ 65535

/-- A keyprint stands only with a scheme over TLS. -/
def Permitted (r : Reading) : Prop := r.tail.token? ≠ none → r.scheme ∈ ["nmdcs", "adcs"]

/-- The address has exactly the parts of the reading. -/
structure Names (r : Reading) (a : Address) : Prop where
  protocol : a.protocol.scheme = r.scheme
  host : a.host.toList = r.host
  port : a.port = r.port
  keyprint : ∀ token ∈ r.tail.token?, ∃ k ∈ a.keyprint,
    k.bytes.flatMap (fun b => Base32.bits 8 b.toNat) = (token.flatMap Base32.digitBits).take 256
  no_keyprint : r.tail.token? = none → a.keyprint = none

/-- The parts that the reader finds. -/
def parts (r : Reading) : Parts := ⟨r.letters, r.host, r.digits, r.tail.token?⟩

end Reading

/-! ### What stands after the port -/

namespace Tail

theorem slash_not_mem_token {token : List Char}
    (h : ∀ c ∈ token, (Base32.digit? c).isSome = true) : '/' ∉ token := by
  intro hmem
  have hslash := h '/' hmem
  revert hslash
  decide

/-- The token is what the label leaves, for it has no slash itself. -/
theorem dropLead?_label {token : List Char} (h : ∀ c ∈ token, (Base32.digit? c).isSome = true)
    (labelled : Bool) : (dropLead? "SHA256/".toList (label labelled ++ token)).getD
      (label labelled ++ token) = token := by
  cases labelled with
  | true =>
    have hdrop : dropLead? "SHA256/".toList (label true ++ token) = some token :=
      dropLead?_eq_some_iff.2 rfl
    rw [hdrop, Option.getD_some]
  | false =>
    cases hdrop : dropLead? "SHA256/".toList (label false ++ token) with
    | none => rfl
    | some rest =>
      have htoken : token = "SHA256/".toList ++ rest := dropLead?_eq_some_iff.1 hdrop
      exact absurd (by simp [htoken]) (slash_not_mem_token h)

theorem keyprintText?_text {t : Tail} (h : t.Shaped) : keyprintText? t.text = some t.token? := by
  cases t with
  | nothing => rfl
  | slash => rfl
  | keyprint labelled token =>
    obtain ⟨hlen, hdigits⟩ := h token rfl
    have hlength : token.length = Digest.textLength 32 := hlen
    simp only [keyprintText?, text, token?]
    rw [dropLead?_label hdigits, if_pos ⟨hlength, List.all_eq_true.2 hdigits⟩]

theorem shaped_keyprint {labelled : Bool} {token : List Char}
    (h : token.length = Digest.textLength 32 ∧
      (token.all fun c => (Base32.digit? c).isSome) = true) : (keyprint labelled token).Shaped := by
  rintro _ ⟨⟩
  exact ⟨h.1, List.all_eq_true.1 h.2⟩

theorem exists_of_keyprintText? {cs : List Char} {token? : Option (List Char)}
    (h : keyprintText? cs = some token?) :
    ∃ t : Tail, t.Shaped ∧ t.text = cs ∧ t.token? = token? := by
  unfold keyprintText? at h
  split at h
  · obtain rfl := Option.some.inj h
    exact ⟨nothing, by simp [Shaped, Tail.token?], rfl, rfl⟩
  · obtain rfl := Option.some.inj h
    exact ⟨slash, by simp [Shaped, Tail.token?], rfl, rfl⟩
  · next rest =>
    simp only [Option.ite_none_right_eq_some, Option.some.injEq] at h
    obtain ⟨hshape, rfl⟩ := h
    cases hdrop : dropLead? "SHA256/".toList rest with
    | none =>
      rw [hdrop, Option.getD_none] at hshape
      exact ⟨keyprint false rest, shaped_keyprint hshape, rfl, rfl⟩
    | some token =>
      rw [hdrop, Option.getD_some] at hshape
      refine ⟨keyprint true token, shaped_keyprint hshape, ?_, rfl⟩
      rw [dropLead?_eq_some_iff.1 hdrop]
      rfl
  · cases h

theorem text_inj {t u : Tail} (ht : t.Shaped) (hu : u.Shaped) (h : t.text = u.text) : t = u := by
  have htoken : t.token? = u.token? := by
    have hread := keyprintText?_text ht
    rw [h, keyprintText?_text hu] at hread
    exact (Option.some.inj hread).symm
  cases t with
  | nothing =>
    cases u with
    | nothing => rfl
    | _ => cases h
  | slash =>
    cases u with
    | slash => rfl
    | _ => cases h
  | keyprint labelled token =>
    cases u with
    | keyprint labelled' token' =>
      obtain rfl : token = token' := Option.some.inj htoken
      have hlabel : label labelled = label labelled' := by simpa [text] using h
      have hlabelled : labelled = labelled' := by
        revert hlabel
        cases labelled <;> cases labelled' <;> decide
      rw [hlabelled]
    | _ => cases h

end Tail

/-! ### The only reading of a text -/

namespace Reading

theorem Shaped.ofText?_text {r : Reading} (h : r.Shaped) : Parts.ofText? r.text = some r.parts := by
  have hhost : ∀ c ∈ r.host, isHostChar c = true := fun c hc => isHostChar_iff.2 (h.host c hc)
  exact ofText?_of_parts h.letters h.host_ne hhost h.digits (Tail.keyprintText?_text h.tail)

theorem text_inj {r s : Reading} (hr : r.Shaped) (hs : s.Shaped) (h : r.text = s.text) : r = s := by
  have hparts : r.parts = s.parts := by
    have hread := hr.ofText?_text
    rw [h, hs.ofText?_text] at hread
    exact (Option.some.inj hread).symm
  obtain ⟨letters, host, digits, tail⟩ := r
  obtain ⟨letters', host', digits', tail'⟩ := s
  obtain ⟨hletters, hhost, hdigits, -⟩ := Parts.mk.inj hparts
  dsimp only at hletters hhost hdigits
  subst hletters hhost hdigits
  have htail : tail.text = tail'.text := by simpa [text] using h
  obtain rfl : tail = tail' := Tail.text_inj hr.tail hs.tail htail
  rfl

end Reading

/-! ### Each text that can be taken apart has a reading -/

theorem schemeText_of_splitScheme {cs rest : List Char} {letters? : Option (List Char)}
    (h : splitScheme cs = (letters?, rest)) :
    schemeText letters? ++ rest = cs ∧ IsScheme letters? := by
  unfold splitScheme at h
  dsimp only at h
  split at h
  · next c letters _ htake hdrop =>
    obtain ⟨rfl, rfl⟩ := Prod.mk.inj h
    have hcs : cs.takeWhile Char.isAlpha ++ cs.dropWhile Char.isAlpha = cs :=
      List.takeWhile_append_dropWhile
    refine ⟨?_, ?_⟩
    · rw [hdrop, htake] at hcs
      simpa [schemeText, htake] using hcs
    · rintro _ ⟨⟩
      rw [htake]
      refine ⟨List.cons_ne_nil _ _, fun d hd => ?_⟩
      rw [← htake] at hd
      exact List.all_eq_true.1 List.all_takeWhile d hd
  · obtain ⟨rfl, rfl⟩ := Prod.mk.inj h
    exact ⟨rfl, by simp [IsScheme]⟩

theorem portText_of_splitPort {cs rest : List Char} {digits? : Option (List Char)}
    (h : splitPort cs = (digits?, rest)) : portText digits? ++ rest = cs ∧ IsPort digits? := by
  unfold splitPort at h
  split at h
  · next after =>
    dsimp only at h
    split at h
    · next hlen =>
      obtain ⟨rfl, rfl⟩ := Prod.mk.inj h
      refine ⟨?_, ?_⟩
      · simp [portText, List.takeWhile_append_dropWhile]
      · rintro _ ⟨⟩
        exact ⟨hlen, fun c hc => List.all_eq_true.1 List.all_takeWhile c hc⟩
    · obtain ⟨rfl, rfl⟩ := Prod.mk.inj h
      exact ⟨rfl, by simp [IsPort]⟩
  · obtain ⟨rfl, rfl⟩ := Prod.mk.inj h
    exact ⟨rfl, by simp [IsPort]⟩

namespace Reading

theorem exists_of_ofText? {cs : List Char} {p : Parts} (h : Parts.ofText? cs = some p) :
    ∃ r : Reading, r.Shaped ∧ r.text = cs ∧ r.parts = p := by
  obtain ⟨hhost_ne, hhost⟩ := host_of_ofText? h
  unfold Parts.ofText? at h
  rcases hscheme : splitScheme cs with ⟨letters?, cs₁⟩
  rcases hport : splitPort (cs₁.dropWhile isHostChar) with ⟨digits?, cs₂⟩
  simp only [hscheme, hport, Option.ite_none_left_eq_some, Option.map_eq_some_iff] at h
  obtain ⟨-, token?, htoken, rfl⟩ := h
  obtain ⟨htext₁, hletters⟩ := schemeText_of_splitScheme hscheme
  obtain ⟨htext₂, hdigits⟩ := portText_of_splitPort hport
  obtain ⟨tail, htail, htext₃, rfl⟩ := Tail.exists_of_keyprintText? htoken
  refine ⟨⟨letters?, cs₁.takeWhile isHostChar, digits?, tail⟩, ?_, ?_, rfl⟩
  · exact ⟨hletters, hhost_ne, fun c hc => isHostChar_iff.1 (hhost c hc), hdigits, htail⟩
  · rw [text]
    dsimp only
    rw [htext₃, htext₂, List.takeWhile_append_dropWhile, htext₁]

theorem ofText?_eq_some_iff {cs : List Char} {p : Parts} :
    Parts.ofText? cs = some p ↔ ∃ r : Reading, r.Shaped ∧ r.text = cs ∧ r.parts = p := by
  constructor
  · exact exists_of_ofText?
  · rintro ⟨r, hr, rfl, rfl⟩
    exact hr.ofText?_text

end Reading

/-! ### What the parts name -/

theorem scheme_inj {p q : Protocol} (h : p.scheme = q.scheme) : p = q := by
  cases p <;> cases q <;> revert h <;> decide

theorem mem_schemes_iff {s : String} :
    s ∈ ["dchub", "nmdc", "nmdcs", "adc", "adcs"] ↔ ∃ p : Protocol, p.scheme = s := by
  constructor
  · intro h
    have hmap : s ∈ Protocol.all.map Protocol.scheme := h
    obtain ⟨p, -, hp⟩ := List.mem_map.1 hmap
    exact ⟨p, hp⟩
  · rintro ⟨p, rfl⟩
    cases p <;> decide

theorem isTls_iff {p : Protocol} : p.isTls = true ↔ p.scheme ∈ ["nmdcs", "adcs"] := by
  cases p <;> decide

theorem ofScheme?_eq_some_iff {s : String} {p : Protocol} :
    Protocol.ofScheme? s = some p ↔ p.scheme = lowerAsciiAll s := by
  constructor
  · intro h
    simpa using List.find?_some h
  · intro h
    have hall : p ∈ Protocol.all := by cases p <;> decide
    cases hfind : Protocol.ofScheme? s with
    | none =>
      have hnone := List.find?_eq_none.1 hfind p hall
      exact absurd (by simpa using h) hnone
    | some q =>
      have hq : q.scheme = lowerAsciiAll s := by simpa using List.find?_some hfind
      rw [scheme_inj (hq.trans h.symm)]

namespace Reading
variable {r : Reading}

theorem protocolOf_letters (r : Reading) {p : Protocol} (h : p.scheme = r.scheme) :
    protocolOf r.letters = .ok p := by
  cases hletters : r.letters with
  | none =>
    rw [scheme, hletters] at h
    rw [scheme_inj (p := p) (q := .dchub) h]
    rfl
  | some letters =>
    rw [scheme, hletters] at h
    rw [protocolOf, ofScheme?_eq_some_iff.2 h]
    rfl

theorem protocolOf_letters_error (h : ∀ p : Protocol, p.scheme ≠ r.scheme) :
    protocolOf r.letters = .error .malformed := by
  cases hletters : r.letters with
  | none =>
    rw [scheme, hletters] at h
    exact absurd rfl (h .dchub)
  | some letters =>
    rw [scheme, hletters] at h
    have hnone : Protocol.ofScheme? (String.ofList letters) = none :=
      Option.eq_none_iff_forall_ne_some.2 fun p hp => h p (ofScheme?_eq_some_iff.1 hp)
    rw [protocolOf, hnone]
    rfl

theorem portOf_digits (r : Reading) : portOf r.digits =
    if 1 ≤ r.port ∧ r.port ≤ 65535 then .ok r.port else .error .malformed := by
  cases hdigits : r.digits with
  | none =>
    have hport : r.port = 411 := by rw [port, hdigits]; rfl
    rw [hport]
    rfl
  | some digits =>
    have hport : r.port = Count.digitsValue digits := by rw [port, hdigits]; rfl
    rw [hport, portOf, portOfDigits?]
    split_ifs <;> rfl

theorem Names.unique {a b : Address} (ha : r.Names a) (hb : r.Names b) : a = b := by
  have hprotocol : a.protocol = b.protocol := scheme_inj (ha.protocol.trans hb.protocol.symm)
  have hhost : a.host = b.host := String.toList_injective (ha.host.trans hb.host.symm)
  have hport : a.port = b.port := ha.port.trans hb.port.symm
  have hkeyprint : a.keyprint = b.keyprint := by
    cases htoken : r.tail.token? with
    | none => rw [ha.no_keyprint htoken, hb.no_keyprint htoken]
    | some token =>
      obtain ⟨k, hk, hkbits⟩ := ha.keyprint token htoken
      obtain ⟨l, hl, hlbits⟩ := hb.keyprint token htoken
      have hkl : k = l := Digest.ext (Base32.flatMap_bits_inj (hkbits.trans hlbits.symm))
      rw [Option.mem_def.1 hk, Option.mem_def.1 hl, hkl]
  cases a
  cases b
  exact Address.mk.injEq .. ▸ ⟨hprotocol, hhost, hport, hkeyprint⟩

/-- Each token of a reading is a keyprint. -/
theorem Shaped.exists_keyprint (h : r.Shaped) {token : List Char} (ht : token ∈ r.tail.token?) :
    ∃ k, Digest.ofText? 32 token = some k ∧ k.bytes.flatMap (fun b => Base32.bits 8 b.toNat) =
      (token.flatMap Base32.digitBits).take 256 := by
  obtain ⟨hlen, hdigits⟩ := h.tail token ht
  have hlength : token.length = Digest.textLength 32 := hlen
  exact Digest.exists_ofText? hlength hdigits

/-! ### The judgement of a reading -/

theorem ofParts_of_not_known (h : ¬ r.Known) : ofParts r.parts = .error .malformed := by
  by_cases hscheme : r.scheme ∈ ["dchub", "nmdc", "nmdcs", "adc", "adcs"]
  · obtain ⟨p, hp⟩ := mem_schemes_iff.1 hscheme
    have hport : ¬ (1 ≤ r.port ∧ r.port ≤ 65535) := fun hport => h ⟨hscheme, hport.1, hport.2⟩
    simp only [ofParts, parts]
    rw [protocolOf_letters r hp, portOf_digits, if_neg hport]
    rfl
  · have hnone : ∀ p : Protocol, p.scheme ≠ r.scheme := fun p hp =>
      hscheme (mem_schemes_iff.2 ⟨p, hp⟩)
    simp only [ofParts, parts]
    rw [protocolOf_letters_error hnone]
    rfl

/-- With a known scheme and port, the keyprint decides. -/
theorem Known.exists_protocol (h : r.Known) : ∃ p : Protocol, p.scheme = r.scheme ∧
    ofParts r.parts = (keyprintOf p r.tail.token?).map
      fun keyprint => ⟨p, String.ofList r.host, r.port, keyprint⟩ := by
  obtain ⟨p, hp⟩ := mem_schemes_iff.1 h.scheme
  refine ⟨p, hp, ?_⟩
  simp only [ofParts, parts]
  rw [protocolOf_letters r hp, portOf_digits, if_pos ⟨h.port_pos, h.port_le⟩]
  rfl

theorem ofParts_of_not_permitted (h : r.Known) (hperm : ¬ r.Permitted) :
    ofParts r.parts = .error .keyprintWithoutTls := by
  obtain ⟨p, hp, hofParts⟩ := h.exists_protocol
  obtain ⟨htoken, htls⟩ := Classical.not_imp.1 hperm
  obtain ⟨token, htoken⟩ := Option.ne_none_iff_exists'.1 htoken
  rw [← hp, ← isTls_iff] at htls
  rw [hofParts, htoken, keyprintOf, if_neg htls]
  rfl

theorem Shaped.exists_names (hr : r.Shaped) (h : r.Known) (hperm : r.Permitted) :
    ∃ a, ofParts r.parts = .ok a ∧ r.Names a := by
  obtain ⟨p, hp, hofParts⟩ := h.exists_protocol
  cases htoken : r.tail.token? with
  | none =>
    rw [htoken] at hofParts
    exact ⟨_, hofParts, hp, String.toList_ofList, rfl, by simp [htoken], fun _ => rfl⟩
  | some token =>
    obtain ⟨k, hk, hbits⟩ := hr.exists_keyprint htoken
    have htls : p.isTls = true := by
      rw [isTls_iff, hp]
      exact hperm (by simp [htoken])
    rw [htoken, keyprintOf, if_pos htls, hk] at hofParts
    refine ⟨_, hofParts, hp, String.toList_ofList, rfl, fun t ht => ?_, by simp [htoken]⟩
    obtain rfl : token = t := by simpa [htoken] using ht
    exact ⟨k, rfl, hbits⟩

namespace Of
variable {s : String}

theorem unique {r' : Reading} (h : r.Of s) (h' : r'.Of s) : r = r' :=
  text_inj h.shaped h'.shaped (h.text.trans h'.text.symm)

theorem parse_eq (h : r.Of s) : parse s = ofParts r.parts := by
  rw [parse, ← h.text, h.shaped.ofText?_text]

theorem exists_names (h : r.Of s) (hknown : r.Known) (hperm : r.Permitted) :
    ∃ a, parse s = .ok a ∧ r.Names a := by
  rw [h.parse_eq]
  exact h.shaped.exists_names hknown hperm

theorem parse_of_not_permitted (h : r.Of s) (hknown : r.Known) (hperm : ¬ r.Permitted) :
    parse s = .error .keyprintWithoutTls := by
  rw [h.parse_eq, ofParts_of_not_permitted hknown hperm]

theorem parse_of_none (h : ¬ ∃ r : Reading, r.Of s ∧ r.Known) : parse s = .error .malformed := by
  rw [parse]
  cases hparts : Parts.ofText? (trim s.toList) with
  | none => rfl
  | some p =>
    obtain ⟨r, hr, htext, rfl⟩ := ofText?_eq_some_iff.1 hparts
    have hknown : ¬ r.Known := fun hknown => h ⟨r, ⟨hr, htext⟩, hknown⟩
    exact ofParts_of_not_known hknown

end Of
end Reading

/-- A text without the blanks around it has at most one reading of the shape of an address. It is an
address iff it has one with a known scheme, a port that there is, and a keyprint only over TLS; the
address has the parts of the reading. If only the last is missing, the error says so. In all other
cases the text is malformed, and that is never found out by decoding the keyprint. -/
theorem parse_as_reading (s : String) :
    (∀ r r' : Reading, r.Of s → r'.Of s → r = r') ∧
    (∀ a, parse s = .ok a ↔ ∃ r : Reading, r.Of s ∧ r.Known ∧ r.Permitted ∧ r.Names a) ∧
    (parse s = .error .keyprintWithoutTls ↔
      ∃ r : Reading, r.Of s ∧ r.Known ∧ ¬ r.Permitted) ∧
    (parse s = .error .malformed ↔ ¬ ∃ r : Reading, r.Of s ∧ r.Known) ∧
    ∀ p, Parts.ofText? (trim s.toList) = some p → ∀ token ∈ p.keyprint,
      (Digest.ofText? 32 token).isSome = true := by
  have hsome : parse s ≠ .error .malformed → ∃ r : Reading, r.Of s ∧ r.Known := fun h =>
    not_not.1 (mt Reading.Of.parse_of_none h)
  refine ⟨fun r r' => Reading.Of.unique, fun a => ⟨fun h => ?_, ?_⟩, ⟨fun h => ?_, ?_⟩,
    ⟨fun h => ?_, Reading.Of.parse_of_none⟩, fun p hp token htoken => ?_⟩
  · obtain ⟨r, hr, hknown⟩ := hsome (by simp [h])
    by_cases hperm : r.Permitted
    · obtain ⟨b, hb, hnames⟩ := hr.exists_names hknown hperm
      obtain rfl : a = b := Except.ok.inj (h.symm.trans hb)
      exact ⟨r, hr, hknown, hperm, hnames⟩
    · cases h.symm.trans (hr.parse_of_not_permitted hknown hperm)
  · rintro ⟨r, hr, hknown, hperm, hnames⟩
    obtain ⟨b, hb, hnames'⟩ := hr.exists_names hknown hperm
    rw [hb, hnames.unique hnames']
  · obtain ⟨r, hr, hknown⟩ := hsome (by simp [h])
    refine ⟨r, hr, hknown, fun hperm => ?_⟩
    obtain ⟨b, hb, -⟩ := hr.exists_names hknown hperm
    cases h.symm.trans hb
  · rintro ⟨r, hr, hknown, hperm⟩
    exact hr.parse_of_not_permitted hknown hperm
  · rintro ⟨r, hr, hknown⟩
    by_cases hperm : r.Permitted
    · obtain ⟨b, hb, -⟩ := hr.exists_names hknown hperm
      cases h.symm.trans hb
    · cases h.symm.trans (hr.parse_of_not_permitted hknown hperm)
  · obtain ⟨r, hr, -, rfl⟩ := Reading.ofText?_eq_some_iff.1 hp
    obtain ⟨k, hk, -⟩ := hr.exists_keyprint htoken
    rw [hk, Option.isSome_some]

/-- A port that there is not is found before a keyprint that may not stand. -/
example : parse "hub:70000/?kp=AAAAAAAAAAAAAAAAAAAAAAAAAAAAAAAAAAAAAAAAAAAAAAAAAAAA" =
    .error .malformed := by
  decide +kernel

end Address
end HubConsole
