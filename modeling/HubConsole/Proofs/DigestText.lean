import HubConsole.Proofs.Accumulator
import HubConsole.Proofs.Reencoding

/-!
# The text of a digest

A digest is read from a text of fixed length and written as a text of that length. Each digest has
one written text and is read from it; a text that was read differs from it in letter case and in the
last bits of the last digit, which fill no byte (`text_of_parse?`). The main statement says so of
the two kinds of digests, and what reading and writing base 32 do to texts and bytes of any length.
-/

namespace HubConsole
open Text

namespace Base32

theorem byteLength_of_digits {cs : List Char} (h : ∀ c ∈ cs, (digit? c).isSome = true) :
    byteLength cs = cs.length :=
  byteLength_of_ascii fun c hc => toNat_lt_of_digit? (h c hc)

end Base32

namespace Digest
variable {size : Nat} {s : String} {d : Digest size}

theorem decode?_of_parse? (h : parse? size s = some d) :
    s.toList.length = textLength size ∧ Base32.decode? s.toList = some d.bytes := by
  rw [parse?, ofText?] at h
  split at h
  · next hlen =>
    split at h
    · next bytes hdecode =>
      split at h
      · obtain rfl := Option.some.inj h
        exact ⟨hlen, hdecode⟩
      · cases h
    · cases h
  · cases h

theorem byteLength_of_parse? (h : parse? size s = some d) :
    byteLength s.toList = textLength size := by
  obtain ⟨hlen, hdecode⟩ := decode?_of_parse? h
  rw [Base32.byteLength_of_digits (Base32.isSome_digit?_of_decode? hdecode), hlen]

/-- What is written is what was read, in upper case and without the bits that fill no byte. -/
theorem text_of_parse? (h : parse? size s = some d) : d.text.toList =
    Base32.clearLast (5 * textLength size - 8 * size) (s.toList.map upperAscii) := by
  obtain ⟨hlen, hdecode⟩ := decode?_of_parse? h
  have hpad : 5 * s.toList.length % 8 = 5 * textLength size - 8 * size := by
    rw [hlen, textLength]
    omega
  have hfew : 5 * textLength size - 8 * size < 5 := by
    rw [textLength]
    omega
  rw [text, String.toList_ofList, Base32.encode_of_decode? hdecode (by omega), hpad]

/-- Bytes are read from what is written, and what is written has as many digits as hold all bits. A
text is read as the bytes that its bits fill; written again, it is the text in upper case iff all
bits of the last digit fill bytes or are zero. For a digest only the bits of the last digit can get
lost, three or four of them, and each digest is read from its own text. The loops come to the same on
words of 32 bits, of which they never use more than 13. -/
theorem text_and_bytes_agree :
    (∀ bs : List UInt8, Base32.decode? (Base32.encode bs) = some bs ∧
      (Base32.encode bs).length = (8 * bs.length + 4) / 5) ∧
    (∀ (cs : List Char) (bs : List UInt8), Base32.decode? cs = some bs →
      bs.length = 5 * cs.length / 8 ∧
      (Base32.encode bs = cs.map upperAscii ↔ cs.length % 8 ∉ [1, 3, 6] ∧
        ∀ c ∈ cs.getLast?, Base32.value c % 2 ^ (5 * cs.length % 8) = 0)) ∧
    (∀ (s : String) (d : Tth), parse? 24 s = some d → byteLength s.toList = 39 ∧
      d.text.toList = Base32.clearLast 3 (s.toList.map upperAscii)) ∧
    (∀ (s : String) (d : Keyprint), parse? 32 s = some d → byteLength s.toList = 52 ∧
      d.text.toList = Base32.clearLast 4 (s.toList.map upperAscii)) ∧
    (∀ d : Tth, parse? 24 d.text = some d) ∧ (∀ d : Keyprint, parse? 32 d.text = some d) ∧
    (∀ cs : List Char, (Base32.Reader.run cs).map Base32.Reader.bytes = Base32.decode? cs ∧
      ∀ r ∈ Base32.Reader.run cs, r.Bounded) ∧
    ∀ bs : List UInt8, (Base32.Writer.run bs).text = Base32.encode bs ∧
      (Base32.Writer.run bs).Bounded := by
  exact ⟨fun bs => ⟨Base32.decode?_encode bs, Base32.length_encode bs⟩,
    fun cs bs h => ⟨Base32.length_of_decode? h, Base32.encode_eq_upper_iff h⟩,
    fun s d h => ⟨byteLength_of_parse? h, text_of_parse? h⟩,
    fun s d h => ⟨byteLength_of_parse? h, text_of_parse? h⟩,
    parse?_text, parse?_text,
    fun cs => ⟨Base32.Reader.bytes_run cs, fun r hr => (Base32.Reader.sound_run hr).bounded⟩,
    fun bs => ⟨Base32.Writer.text_run bs, (Base32.Writer.sound_run bs).bounded⟩⟩

/-- The last digits here have bits that fill no byte, and none of these is zero. -/
theorem text_and_bytes_agree_dropped :
    let cs := "mzxw6ytbol".toList
    let bs : List UInt8 := [102, 111, 111, 98, 97, 114]
    let root : Tth := ⟨List.replicate 24 0, rfl⟩
    let pin : Keyprint := ⟨List.replicate 32 0, rfl⟩
    let rootText := "aaaaaaaaaaaaaaaaaaaaaaaaaaaaaaaaaaaaaah"
    let pinText := "aaaaaaaaaaaaaaaaaaaaaaaaaaaaaaaaaaaaaaaaaaaaaaaaaaap"
    (Base32.decode? cs = some bs ∧ bs.length = 5 * cs.length / 8 ∧
      (Base32.encode bs = cs.map upperAscii ↔ cs.length % 8 ∉ [1, 3, 6] ∧
        ∀ c ∈ cs.getLast?, Base32.value c % 2 ^ (5 * cs.length % 8) = 0)) ∧
    (parse? 24 rootText = some root ∧ byteLength rootText.toList = 39 ∧
      root.text.toList = Base32.clearLast 3 (rootText.toList.map upperAscii)) ∧
    (parse? 32 pinText = some pin ∧ byteLength pinText.toList = 52 ∧
      pin.text.toList = Base32.clearLast 4 (pinText.toList.map upperAscii)) ∧
    ∃ r ∈ Base32.Reader.run cs, r.bytes = bs ∧ r.Bounded := by
  intro cs bs root pin rootText pinText
  obtain ⟨-, hread, hroot, hpin, -, -, hloop, -⟩ := text_and_bytes_agree
  have hcs : Base32.decode? cs = some bs := by decide +kernel
  have hrootText : parse? 24 rootText = some root := by decide +kernel
  have hpinText : parse? 32 pinText = some pin := by decide +kernel
  obtain ⟨hbytes, hbounded⟩ := hloop cs
  obtain ⟨r, hr, hrbytes⟩ := Option.map_eq_some_iff.1 (hbytes.trans hcs)
  exact ⟨⟨hcs, hread cs bs hcs⟩, ⟨hrootText, hroot rootText root hrootText⟩,
    ⟨hpinText, hpin pinText pin hpinText⟩, r, hr, hrbytes, hbounded r hr⟩

end Digest
end HubConsole
