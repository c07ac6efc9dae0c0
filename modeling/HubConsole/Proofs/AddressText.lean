import HubConsole.Address
import HubConsole.Proofs.Base32
import HubConsole.Proofs.Result
import HubConsole.Proofs.Trim

/-! # The text of an address

`Address.WellFormed`: what reading guarantees of an address (`wellFormed_of_parse`). The text of
such an address reads back as the address (`parse_text`), and its canonical text as the address
without its keyprint (`parse_canonical`); so the canonical text names protocol, host and port, and
nothing else (`canonical_inj`). Both texts write out all that may be left out, and differ only in
what stands after the port (`written`). -/

namespace HubConsole
open Text Result

namespace Address

/-- What holds of each address that can be read. -/
structure WellFormed (a : Address) : Prop where
  host_ne : a.host.toList ≠ []
  host_chars : ∀ c ∈ a.host.toList, isHostChar c = true
  port_pos : 1 ≤ a.port
  port_le : a.port ≤ 65535
  tls : ∀ k ∈ a.keyprint, a.protocol.isTls = true

/-- What tells where a hub is: an address but for its keyprint. -/
def endpoint (a : Address) : Protocol × String × Nat := (a.protocol, a.host, a.port)

/-! ### Taking a written text apart -/

theorem splitScheme_append {letters : List Char} (hne : letters ≠ [])
    (hletters : ∀ c ∈ letters, c.isAlpha = true) (rest : List Char) :
    splitScheme (letters ++ ':' :: '/' :: '/' :: rest) = (some letters, rest) := by
  have hend : ∀ c ∈ (':' :: '/' :: '/' :: rest).head?, c.isAlpha = false := by simp
  rw [splitScheme, takeWhile_run hletters hend, dropWhile_run hletters hend]
  cases letters with
  | nil => exact absurd rfl hne
  | cons => rfl

theorem splitPort_append {digits rest : List Char} (hlo : 1 ≤ digits.length) (hhi : digits.length ≤ 5)
    (hdigits : ∀ c ∈ digits, c.isDigit = true) (hrest : ∀ c ∈ rest.head?, c.isDigit = false) :
    splitPort (':' :: (digits ++ rest)) = (some digits, rest) := by
  simp [splitPort, takeWhile_run hdigits hrest, dropWhile_run hdigits hrest, hlo, hhi]

theorem head?_of_keyprintText? {rest : List Char} {kp : Option (List Char)}
    (h : keyprintText? rest = some kp) : ∀ c ∈ rest.head?, c = '/' := by
  unfold keyprintText? at h
  split at h
  case h_4 => cases h
  all_goals simp

theorem isHostChar_iff {c : Char} :
    isHostChar c = true ↔ isBlank c = false ∧ c ∉ ":/<>()[]".toList := by
  simp [isHostChar]

theorem isHostChar_of_isAlpha {c : Char} (h : c.isAlpha = true) : isHostChar c = true := by
  refine isHostChar_iff.2 ⟨isBlank_of_isAlpha h, fun hmem => ?_⟩
  have hnone : (":/<>()[]".toList.any Char.isAlpha) = false := by decide
  exact absurd h (by simpa using List.any_eq_false.1 hnone c hmem)

/-- The text of a scheme, which may be left out. -/
def schemeText (letters? : Option (List Char)) : List Char :=
  letters?.elim [] fun letters => letters ++ "://".toList

/-- The text of a port, which may be left out. -/
def portText (digits? : Option (List Char)) : List Char :=
  digits?.elim [] fun digits => ':' :: digits

/-- What can stand for a scheme. -/
def IsScheme (letters? : Option (List Char)) : Prop :=
  ∀ letters ∈ letters?, letters ≠ [] ∧ ∀ c ∈ letters, c.isAlpha = true

/-- What can stand for a port. -/
def IsPort (digits? : Option (List Char)) : Prop :=
  ∀ digits ∈ digits?, (1 ≤ digits.length ∧ digits.length ≤ 5) ∧ ∀ c ∈ digits, c.isDigit = true

theorem splitPort_portText {digits? : Option (List Char)} {rest : List Char} (h : IsPort digits?)
    (hrest : ∀ c ∈ rest.head?, c = '/') :
    splitPort (portText digits? ++ rest) = (digits?, rest) := by
  cases digits? with
  | none =>
    cases rest with
    | nil => rfl
    | cons c rest =>
      obtain rfl := hrest c rfl
      rfl
  | some digits =>
    obtain ⟨⟨hlo, hhi⟩, hdigits⟩ := h digits rfl
    refine splitPort_append hlo hhi hdigits fun c hc => ?_
    rw [hrest c hc]
    decide

/-- A host that no `://` follows is not taken for a scheme. -/
theorem splitScheme_of_host {host rest : List Char} (hhost : ∀ c ∈ host, isHostChar c = true)
    (hend : ∀ c ∈ rest.head?, isHostChar c = false) (hrest : ∀ cs, rest ≠ ':' :: '/' :: '/' :: cs) :
    splitScheme (host ++ rest) = (none, host ++ rest) := by
  unfold splitScheme
  dsimp only
  split
  · next cs hletters hdrop =>
    set letters := (host ++ rest).takeWhile Char.isAlpha
    have hcs : host ++ rest = letters ++ ':' :: '/' :: '/' :: cs := by
      rw [← hdrop, List.takeWhile_append_dropWhile]
    have halpha : ∀ c ∈ letters, isHostChar c = true := fun c hc =>
      isHostChar_of_isAlpha (List.all_eq_true.1 List.all_takeWhile c hc)
    have hcolon : ∀ c ∈ (':' :: '/' :: '/' :: cs).head?, isHostChar c = false := by
      rintro _ ⟨⟩
      decide
    -- the host ends where the letters end
    have hsame : host = letters := by
      rw [← takeWhile_run hhost hend, hcs, takeWhile_run halpha hcolon]
    rw [← hsame, List.append_cancel_left_eq] at hcs
    exact absurd hcs (hrest cs)
  · rfl

theorem splitScheme_schemeText {letters? : Option (List Char)} {rest : List Char}
    (h : IsScheme letters?) (hrest : splitScheme rest = (none, rest)) :
    splitScheme (schemeText letters? ++ rest) = (letters?, rest) := by
  cases letters? with
  | none => exact hrest
  | some letters =>
    obtain ⟨hne, hletters⟩ := h letters rfl
    have htext : schemeText (some letters) ++ rest = letters ++ ':' :: '/' :: '/' :: rest := by
      simp [schemeText]
    rw [htext, splitScheme_append hne hletters]

/-- The host ends before the port and what follows it. -/
theorem ends_host {digits? : Option (List Char)} {rest : List Char} (h : IsPort digits?)
    (hrest : ∀ c ∈ rest.head?, c = '/') :
    (∀ c ∈ (portText digits? ++ rest).head?, isHostChar c = false) ∧
      ∀ cs, portText digits? ++ rest ≠ ':' :: '/' :: '/' :: cs := by
  cases digits? with
  | none =>
    refine ⟨fun c hc => ?_, fun cs hcs => ?_⟩
    · rw [hrest c hc]
      decide
    · have hcolon : ':' = '/' := hrest ':' (by simpa [portText] using congrArg List.head? hcs)
      cases hcolon
  | some digits =>
    obtain ⟨⟨hlo, -⟩, hall⟩ := h digits rfl
    refine ⟨?_, fun cs hcs => ?_⟩
    · rintro _ ⟨⟩
      decide
    · cases digits with
      | nil => cases hlo
      | cons d digits =>
        obtain rfl : d = '/' := (List.cons.inj (List.cons.inj hcs).2).1
        have hslash := hall '/' List.mem_cons_self
        revert hslash
        decide

/-- A text put together from its parts is taken apart into them. -/
theorem ofText?_of_parts {letters? digits? kp : Option (List Char)} {host rest : List Char}
    (hletters : IsScheme letters?) (hhost_ne : host ≠ []) (hhost : ∀ c ∈ host, isHostChar c = true)
    (hdigits : IsPort digits?) (hkp : keyprintText? rest = some kp) :
    Parts.ofText? (schemeText letters? ++ (host ++ (portText digits? ++ rest))) =
      some ⟨letters?, host, digits?, kp⟩ := by
  have hslash := head?_of_keyprintText? hkp
  obtain ⟨hend, hrest⟩ := ends_host hdigits hslash
  rw [Parts.ofText?, splitScheme_schemeText hletters (splitScheme_of_host hhost hend hrest)]
  simp only [takeWhile_run hhost hend, dropWhile_run hhost hend, splitPort_portText hdigits hslash,
    hkp]
  simp [hhost_ne]

/-! ### Reading -/

theorem ofScheme?_scheme (p : Protocol) :
    Protocol.ofScheme? (String.ofList p.scheme.toList) = some p := by
  cases p <;> decide

theorem scheme_ne (p : Protocol) : p.scheme.toList ≠ [] := by cases p <;> decide

theorem isAlpha_of_mem_scheme (p : Protocol) : ∀ c ∈ p.scheme.toList, c.isAlpha = true := by
  have hall : p.scheme.toList.all Char.isAlpha = true := by cases p <;> decide
  exact List.all_eq_true.1 hall

theorem isScheme_scheme (p : Protocol) : IsScheme (some p.scheme.toList) := by
  rintro _ ⟨⟩
  exact ⟨scheme_ne p, isAlpha_of_mem_scheme p⟩

theorem port_bounds {digits? : Option (List Char)} {port : Nat} (h : portOf digits? = .ok port) :
    1 ≤ port ∧ port ≤ 65535 := by
  unfold portOf at h
  split at h
  · obtain rfl := pure_eq_ok_iff.1 h
    decide
  · split at h
    · next hport =>
      obtain rfl := pure_eq_ok_iff.1 h
      simp only [portOfDigits?, Option.ite_none_right_eq_some, Option.some.injEq] at hport
      exact hport.2 ▸ hport.1
    · exact absurd h throw_ne_ok

theorem isTls_of_keyprintOf {protocol : Protocol} {digits? : Option (List Char)}
    {keyprint : Option Keyprint} (h : keyprintOf protocol digits? = .ok keyprint) :
    ∀ k ∈ keyprint, protocol.isTls = true := by
  unfold keyprintOf at h
  split at h
  · obtain rfl := pure_eq_ok_iff.1 h
    simp
  · split at h
    · next htls => exact fun _ _ => htls
    · exact absurd h throw_ne_ok

theorem wellFormed_of_ofParts {p : Parts} {a : Address} (hne : p.host ≠ [])
    (hhost : ∀ c ∈ p.host, isHostChar c = true) (h : ofParts p = .ok a) : a.WellFormed := by
  simp only [ofParts, bind_eq_ok_iff, pure_eq_ok_iff] at h
  obtain ⟨protocol, -, port, hport, keyprint, hkeyprint, rfl⟩ := h
  refine ⟨?_, ?_, (port_bounds hport).1, (port_bounds hport).2, isTls_of_keyprintOf hkeyprint⟩
  · simpa using hne
  · simpa using hhost

theorem host_of_ofText? {cs : List Char} {p : Parts} (h : Parts.ofText? cs = some p) :
    p.host ≠ [] ∧ ∀ c ∈ p.host, isHostChar c = true := by
  simp only [Parts.ofText?] at h
  split at h
  · cases h
  · next hne =>
    obtain ⟨kp, -, rfl⟩ := Option.map_eq_some_iff.1 h
    exact ⟨by simpa using hne, fun c hc => List.all_eq_true.1 List.all_takeWhile c hc⟩

theorem wellFormed_of_parse {s : String} {a : Address} (h : parse s = .ok a) : a.WellFormed := by
  unfold parse at h
  split at h
  · next p hp => exact wellFormed_of_ofParts (host_of_ofText? hp).1 (host_of_ofText? hp).2 h
  · exact absurd h throw_ne_ok

/-! ### Reading what is written -/

/-- The text of protocol, host and port, with `rest` after it. -/
def written (a : Address) (rest : List Char) : List Char :=
  a.protocol.scheme.toList ++ ':' :: '/' :: '/' ::
    (a.host.toList ++ ':' :: (Nat.toDigits 10 a.port ++ rest))

theorem toList_canonical (a : Address) : a.canonical.toList = a.written ['/'] := by
  simp [canonical, written, String.toList_append, Nat.toList_repr]

/-- A keyprint as it stands after the port. -/
def pin (k : Keyprint) : List Char :=
  '/' :: '?' :: 'k' :: 'p' :: '=' :: ("SHA256/".toList ++ k.text.toList)

theorem toList_text {a : Address} {k : Keyprint} (h : a.keyprint = some k) :
    a.text.toList = a.written (pin k) := by
  have htext : a.text = a.canonical ++ "?kp=SHA256/" ++ k.text := by rw [text, h]
  rw [htext, String.toList_append, String.toList_append, toList_canonical]
  simp [written, pin]

/-- The last character of a pinned address is a digit of the keyprint. -/
theorem getLast?_pin (k : Keyprint) : ∃ c, (pin k).getLast? = some c ∧ isBlank c = false := by
  have hne : k.text.toList ≠ [] := by
    refine List.ne_nil_of_length_pos ?_
    rw [k.length_text]
    decide
  refine ⟨k.text.toList.getLast hne, ?_, ?_⟩
  · simp [pin, List.getLast?_cons, List.getLast?_eq_some_getLast hne]
  · have hdigit := Digest.isSome_digit?_of_mem_text (List.getLast_mem hne)
    exact isBlank_of_isAlphanum (Base32.isAlphanum_of_digit? hdigit)

theorem keyprintText?_pin (k : Keyprint) : keyprintText? (pin k) = some (some k.text.toList) := by
  have hdrop : dropLead? "SHA256/".toList ("SHA256/".toList ++ k.text.toList) =
      some k.text.toList := dropLead?_eq_some_iff.2 rfl
  have hdigits : (k.text.toList.all fun c => (Base32.digit? c).isSome) = true :=
    List.all_eq_true.2 fun c hc => Digest.isSome_digit?_of_mem_text hc
  simp only [keyprintText?, pin, hdrop, Option.getD_some]
  rw [if_pos ⟨k.length_text, hdigits⟩]

theorem trim_written (a : Address) {rest : List Char}
    (hlast : ∃ c, rest.getLast? = some c ∧ isBlank c = false) :
    trim (a.written rest) = a.written rest := by
  refine trim_eq_self_iff.2 ⟨fun c hc => ?_, fun c hc => ?_⟩
  · obtain ⟨d, ds, hds⟩ := List.exists_cons_of_ne_nil (scheme_ne a.protocol)
    have hd : d ∈ a.protocol.scheme.toList := hds ▸ List.mem_cons_self
    rw [written, hds, List.cons_append, List.head?_cons, Option.mem_some_iff] at hc
    subst hc
    exact isBlank_of_isAlpha (isAlpha_of_mem_scheme a.protocol d hd)
  · obtain ⟨d, hd, hblank⟩ := hlast
    have hdc : d = c := by simpa [written, List.getLast?_append, List.getLast?_cons, hd] using hc
    exact hdc ▸ hblank

namespace WellFormed
variable {a b : Address}

theorem portOf_port (h : a.WellFormed) : portOf (some (Nat.toDigits 10 a.port)) = .ok a.port := by
  rw [portOf, portOfDigits?, Count.digitsValue_toDigits]
  simp [h.port_pos, h.port_le, pure, Except.pure]

theorem isPort_port (h : a.WellFormed) : IsPort (some (Nat.toDigits 10 a.port)) := by
  rintro _ ⟨⟩
  have := h.port_le
  refine ⟨⟨Nat.length_toDigits_pos, ?_⟩, List.all_eq_true.1 (Count.all_isDigit_toDigits _)⟩
  exact (Nat.length_toDigits_le_iff (by decide) (by decide)).2 (by omega)

/-- What stands after the port decides on the keyprint; the rest reads back as it was. -/
theorem parse_of_written (h : a.WellFormed) {s : String} {rest : List Char}
    {digits? : Option (List Char)} {keyprint : Option Keyprint} (hs : s.toList = a.written rest)
    (hlast : ∃ c, rest.getLast? = some c ∧ isBlank c = false)
    (hrest : keyprintText? rest = some digits?)
    (hkeyprint : keyprintOf a.protocol digits? = .ok keyprint) :
    parse s = .ok { a with keyprint } := by
  have htext : a.written rest = schemeText (some a.protocol.scheme.toList) ++
      (a.host.toList ++ (portText (some (Nat.toDigits 10 a.port)) ++ rest)) := by
    simp [written, schemeText, portText]
  rw [parse, hs, trim_written a hlast, htext,
    ofText?_of_parts (isScheme_scheme _) h.host_ne h.host_chars h.isPort_port hrest]
  simp only [ofParts, protocolOf, ofScheme?_scheme, h.portOf_port]
  simp [hkeyprint, bind, Except.bind, pure, Except.pure]

/-- The canonical text names everything but the keyprint. -/
theorem parse_canonical (h : a.WellFormed) : parse a.canonical = .ok { a with keyprint := none } :=
  have hrest : keyprintText? ['/'] = some none := rfl
  h.parse_of_written (toList_canonical a) ⟨'/', rfl, by decide⟩ hrest rfl

theorem parse_text (h : a.WellFormed) : parse a.text = .ok a := by
  cases hk : a.keyprint with
  | none =>
    have htext : a.text = a.canonical := by rw [text, hk]
    rw [htext, h.parse_canonical, ← hk]
  | some k =>
    have hpin : keyprintOf a.protocol (some k.text.toList) = .ok (some k) := by
      rw [keyprintOf, if_pos (h.tls k hk), k.ofText?_text]
      rfl
    rw [h.parse_of_written (toList_text hk) (getLast?_pin k) (keyprintText?_pin k) hpin, ← hk]

theorem canonical_inj (ha : a.WellFormed) (hb : b.WellFormed) :
    a.canonical = b.canonical ↔ a.endpoint = b.endpoint := by
  constructor
  · intro h
    have := ha.parse_canonical
    rw [h, hb.parse_canonical] at this
    injection this with this
    simp only [mk.injEq, endpoint, Prod.mk.injEq] at this ⊢
    exact ⟨this.1.symm, this.2.1.symm, this.2.2.1.symm⟩
  · intro h
    simp only [endpoint, Prod.mk.injEq] at h
    rw [canonical, canonical, h.1, h.2.1, h.2.2]

end WellFormed

/-- An address that was read has a port, a host that is a plain word, and a keyprint only over TLS.
It is read again from its text, and but for its keyprint from its canonical text, which is the same
for another address iff that has the same protocol, host and port. -/
theorem reads_as_written {s : String} {a : Address} (h : parse s = .ok a) :
    (1 ≤ a.port ∧ a.port ≤ 65535) ∧
    (a.host ≠ "" ∧ ∀ c ∈ a.host.toList, isBlank c = false ∧ c ∉ ":/<>()[]".toList) ∧
    (a.keyprint ≠ none → a.protocol = .nmdcs ∨ a.protocol = .adcs) ∧
    parse a.text = .ok a ∧ parse a.canonical = .ok { a with keyprint := none } ∧
    ∀ t b, parse t = .ok b → (a.canonical = b.canonical ↔
      a.protocol = b.protocol ∧ a.host = b.host ∧ a.port = b.port) := by
  have ha := wellFormed_of_parse h
  refine ⟨⟨ha.port_pos, ha.port_le⟩, ⟨?_, fun c hc => ?_⟩, fun hk => ?_, ha.parse_text,
    ha.parse_canonical, fun t b hb => ?_⟩
  · simpa using ha.host_ne
  · simpa [isHostChar] using ha.host_chars c hc
  · obtain ⟨k, hk⟩ := Option.ne_none_iff_exists'.1 hk
    have htls := ha.tls k hk
    revert htls
    cases a.protocol <;> simp [Protocol.isTls]
  · rw [ha.canonical_inj (wellFormed_of_parse hb), endpoint, endpoint, Prod.mk.injEq, Prod.mk.injEq]

/-- Letter case of the scheme, zeros before the port, and bits of the keyprint that fill no byte are
not written again. -/
theorem reads_as_written_keyprint :
    let s := " ADCS://ü@hub?:00411/?kp=aaaaaaaaaaaaaaaaaaaaaaaaaaaaaaaaaaaaaaaaaaaaaaaaaaaB "
    let a : Address := ⟨.adcs, "ü@hub?", 411, some ⟨List.replicate 32 0, rfl⟩⟩
    parse s = .ok a ∧ parse a.text = .ok a ∧
      parse a.canonical = .ok { a with keyprint := none } := by
  intro s a
  have hread : parse s = .ok a := by decide +kernel
  obtain ⟨-, -, -, htext, hcanonical, -⟩ := reads_as_written hread
  exact ⟨hread, htext, hcanonical⟩

end Address
end HubConsole
