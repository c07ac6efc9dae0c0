import HubConsole.Digest
import HubConsole.Proofs.Trim
import Mathlib.Data.List.Forall2
import Mathlib.Data.Nat.Digits.Defs

/-! # Base 32 reads back

The two accumulators keep one number: what has gone in is what has come out and what is still in
the buffer (`decodeFrom_eq`, `encodeFrom_eq`). So the digits of a list of bytes read back as that
list (`decode?_encode`), and a digest can be told from its text (`Digest.parse?_text`). Digits of any
kind are read as the bytes that their bits fill (`exists_decode?`). -/

namespace HubConsole
namespace Base32

/-- The number that digits of some base write, first digit first. -/
def number (base : Nat) (ds : List Nat) : Nat := Nat.ofDigits base ds.reverse

@[simp] theorem number_nil (base : Nat) : number base [] = 0 := rfl

theorem number_cons (base d : Nat) (ds : List Nat) :
    number base (d :: ds) = d * base ^ ds.length + number base ds := by
  rw [number, List.reverse_cons, Nat.ofDigits_append, Nat.ofDigits_singleton, List.length_reverse,
    number]
  ring

theorem number_append (base : Nat) (xs ys : List Nat) :
    number base (xs ++ ys) = number base xs * base ^ ys.length + number base ys := by
  rw [number, List.reverse_append, Nat.ofDigits_append, List.length_reverse, number, number]
  ring

theorem number_inj {base : Nat} (hb : 1 < base) {xs ys : List Nat} (hlen : xs.length = ys.length)
    (hx : ∀ x ∈ xs, x < base) (hy : ∀ y ∈ ys, y < base) (h : number base xs = number base ys) :
    xs = ys := by
  refine List.reverse_inj.1 (Nat.ofDigits_inj_of_len_eq hb ?_ ?_ ?_ h)
  · rw [List.length_reverse, List.length_reverse, hlen]
  · simpa using hx
  · simpa using hy

theorem pow_32 (n : Nat) : 32 ^ n = 2 ^ (5 * n) := Nat.pow_mul 2 5 n |>.symm

theorem pow_256 (n : Nat) : 256 ^ n = 2 ^ (8 * n) := Nat.pow_mul 2 8 n |>.symm

theorem digit?_digit (n : Nat) : digit? (digit n) = some (n % 32) := by
  have h : ∀ m < 32, digit? (digit m) = some m := by decide
  have hd : digit n = digit (n % 32) := by simp [digit]
  rw [hd, h _ (Nat.mod_lt _ (by decide))]

theorem digit?_lt {c : Char} {v : Nat} (h : digit? c = some v) : v < 32 := by
  have le_iff : ∀ a b : Char, a ≤ b ↔ a.toNat ≤ b.toNat := fun _ _ => Iff.rfl
  simp only [digit?, le_iff, Char.reduceToNat] at h
  split_ifs at h <;> simp only [Option.some.injEq] at h <;> omega

theorem isAlphanum_of_digit? {c : Char} (h : (digit? c).isSome = true) : c.isAlphanum = true := by
  have le_iff : ∀ a b : Char, a ≤ b ↔ a.toNat ≤ b.toNat := fun _ _ => Iff.rfl
  simp only [digit?, le_iff, Char.reduceToNat] at h
  rw [Text.isAlphanum_iff]
  split_ifs at h
  · omega
  · omega
  · omega
  · cases h

/-- What comes out of the reader: as many bytes as are full, whose number is that of the digits but
for the bits that do not fill a byte. -/
theorem decodeFrom_eq {cs : List Char} {vs : List Nat}
    (h : List.Forall₂ (fun c v => digit? c = some v) cs vs) (buffer bits : Nat) (hbits : bits < 8)
    (hbuf : buffer < 2 ^ bits) :
    ∃ out rest, decodeFrom buffer bits cs = some out ∧ out.length = (bits + 5 * vs.length) / 8 ∧
      rest < 2 ^ ((bits + 5 * vs.length) % 8) ∧
      buffer * 32 ^ vs.length + number 32 vs =
        number 256 (out.map UInt8.toNat) * 2 ^ ((bits + 5 * vs.length) % 8) + rest := by
  induction h generalizing buffer bits with
  | nil =>
    refine ⟨[], buffer, rfl, ?_, ?_, ?_⟩
    · simp only [List.length_nil]; omega
    · simpa [Nat.mod_eq_of_lt hbits] using hbuf
    · simp
  | @cons c v cs vs hc _ ih =>
    have hv := digit?_lt hc
    have hlt : buffer * 32 + v < 2 ^ (bits + 5) := by rw [Nat.pow_add]; omega
    rw [number_cons, List.length_cons]
    by_cases hb : bits < 3
    · obtain ⟨out, rest, hout, hlen, hrest, heq⟩ := ih _ _ (by omega) hlt
      have e : bits + 5 * (vs.length + 1) = bits + 5 + 5 * vs.length := by ring
      rw [e]
      refine ⟨out, rest, ?_, hlen, hrest, ?_⟩
      · simp [decodeFrom, hc, hb, hout]
      · rw [← heq]; ring
    · obtain ⟨k, rfl⟩ : ∃ k, bits = k + 3 := ⟨bits - 3, by omega⟩
      set b := buffer * 32 + v with hbdef
      obtain ⟨out, rest, hout, hlen, hrest, heq⟩ :=
        ih (b % 2 ^ k) k (by omega) (Nat.mod_lt _ (Nat.two_pow_pos k))
      have hbyte : b / 2 ^ k < 256 := by
        rw [Nat.div_lt_iff_lt_mul (Nat.two_pow_pos k)]
        calc b < 2 ^ (k + 3 + 5) := hlt
          _ = 256 * 2 ^ k := by ring
      have ediv : (k + 3 + 5 * (vs.length + 1)) / 8 = (k + 5 * vs.length) / 8 + 1 := by omega
      have emod : (k + 3 + 5 * (vs.length + 1)) % 8 = (k + 5 * vs.length) % 8 := by omega
      rw [ediv, emod]
      refine ⟨UInt8.ofNat (b / 2 ^ k) :: out, rest, ?_, by simp [hlen], hrest, ?_⟩
      · simp [decodeFrom, hc, ← hbdef, hout]
      · have hsplit : b = b / 2 ^ k * 2 ^ k + b % 2 ^ k := (Nat.div_add_mod' b (2 ^ k)).symm
        -- the new byte weighs as much as the bits that have left the buffer
        have hweigh : 256 ^ out.length * 2 ^ ((k + 5 * vs.length) % 8) = 2 ^ k * 32 ^ vs.length := by
          rw [hlen, pow_256, pow_32, ← Nat.pow_add, ← Nat.pow_add, Nat.div_add_mod]
        rw [List.map_cons, number_cons, List.length_map, UInt8.toNat_ofNat_of_lt' hbyte]
        calc buffer * 32 ^ (vs.length + 1) + (v * 32 ^ vs.length + number 32 vs)
            = b * 32 ^ vs.length + number 32 vs := by rw [hbdef]; ring
          _ = b / 2 ^ k * (2 ^ k * 32 ^ vs.length) + (b % 2 ^ k * 32 ^ vs.length + number 32 vs) := by
              conv_lhs => rw [hsplit]
              ring
          _ = _ := by rw [heq, ← hweigh]; ring

/-- The digits that fill up: their number is the buffer but for its last bits. -/
theorem fullDigits_eq (buffer bits : Nat) :
    ∃ vs : List Nat, fullDigits buffer bits = vs.map digit ∧ vs.length = bits / 5 ∧
      (∀ v ∈ vs, v < 32) ∧ number 32 vs = buffer / 2 ^ (bits % 5) % 32 ^ (bits / 5) := by
  induction bits using Nat.strongRecOn with
  | ind bits ih =>
    rw [fullDigits]
    split
    · next h =>
      refine ⟨[], rfl, by simp; omega, by simp, ?_⟩
      rw [Nat.div_eq_of_lt h]
      simp [Nat.mod_one]
    · next h =>
      obtain ⟨k, rfl⟩ : ∃ k, bits = k + 5 := ⟨bits - 5, by omega⟩
      obtain ⟨vs, hvs, hlen, hlt, hnum⟩ := ih k (by omega)
      have ediv : (k + 5) / 5 = k / 5 + 1 := by omega
      have emod : (k + 5) % 5 = k % 5 := by omega
      refine ⟨buffer / 2 ^ k % 32 :: vs, ?_, by simp [hlen, ediv], ?_, ?_⟩
      · rw [Nat.add_sub_cancel, hvs, List.map_cons]
        simp [digit]
      · intro v hv
        rcases List.mem_cons.1 hv with rfl | hv
        · exact Nat.mod_lt _ (by decide)
        · exact hlt v hv
      · have hk : 2 ^ k = 2 ^ (k % 5) * 32 ^ (k / 5) := by
          rw [pow_32, ← Nat.pow_add, Nat.mod_add_div]
        rw [number_cons, hnum, hlen, ediv, emod, Nat.pow_succ, Nat.mod_mul, Nat.div_div_eq_div_mul,
          ← hk]
        ring

/-- What comes out of the writer: as few digits as hold all bits, whose number is that of the bytes,
filled up with zero bits. -/
theorem encodeFrom_eq (bs : List UInt8) (buffer bits : Nat) (hbits : bits < 5)
    (hbuf : buffer < 2 ^ bits) :
    ∃ vs : List Nat, encodeFrom buffer bits bs = vs.map digit ∧
      vs.length = (bits + 8 * bs.length + 4) / 5 ∧ (∀ v ∈ vs, v < 32) ∧
      number 32 vs = (buffer * 256 ^ bs.length + number 256 (bs.map UInt8.toNat)) *
        2 ^ (5 * vs.length - (bits + 8 * bs.length)) := by
  induction bs generalizing buffer bits with
  | nil =>
    rw [encodeFrom]
    split
    · next h =>
      subst h
      obtain rfl : buffer = 0 := by simpa using hbuf
      exact ⟨[], rfl, rfl, by simp, by simp⟩
    · next h =>
      have hlt : buffer * 2 ^ (5 - bits) < 32 := by
        calc buffer * 2 ^ (5 - bits) < 2 ^ bits * 2 ^ (5 - bits) :=
              Nat.mul_lt_mul_of_pos_right hbuf (Nat.two_pow_pos _)
          _ = 32 := by rw [← Nat.pow_add, Nat.add_sub_cancel' (by omega)]
      refine ⟨[buffer * 2 ^ (5 - bits)], rfl, ?_, by simpa using hlt, ?_⟩
      · simp only [List.length_singleton, List.length_nil]; omega
      · simp [number_cons]
  | cons b bs ih =>
    set full := buffer * 256 + b.toNat with hfull
    have hfull_lt : full < 2 ^ (bits + 8) := by
      have := b.toNat_lt
      rw [Nat.pow_add]; omega
    obtain ⟨xs, hxs, hxlen, hxlt, hxnum⟩ := fullDigits_eq full (bits + 8)
    obtain ⟨ys, hys, hylen, hylt, hynum⟩ := ih (full % 2 ^ ((bits + 8) % 5)) _
      (Nat.mod_lt _ (by decide)) (Nat.mod_lt _ (Nat.two_pow_pos _))
    have hlen : (xs ++ ys).length = (bits + 8 * (b :: bs).length + 4) / 5 := by
      rw [List.length_append, List.length_cons, hxlen, hylen]; omega
    refine ⟨xs ++ ys, ?_, hlen, ?_, ?_⟩
    · rw [encodeFrom, hxs, Nat.pow_eq, hys, List.map_append]
    · intro v hv
      exact (List.mem_append.1 hv).elim (hxlt v) (hylt v)
    · -- the full digits are the buffer without the bits that stay in it
      have hx : number 32 xs = full / 2 ^ ((bits + 8) % 5) := by
        rw [hxnum, Nat.mod_eq_of_lt]
        rw [Nat.div_lt_iff_lt_mul (Nat.two_pow_pos _), pow_32, ← Nat.pow_add, Nat.div_add_mod]
        exact hfull_lt
      have hsplit : full = full / 2 ^ ((bits + 8) % 5) * 2 ^ ((bits + 8) % 5) +
          full % 2 ^ ((bits + 8) % 5) := (Nat.div_add_mod' full _).symm
      have hpad : 5 * (xs ++ ys).length - (bits + 8 * (b :: bs).length) =
          5 * ys.length - ((bits + 8) % 5 + 8 * bs.length) := by
        rw [List.length_append, List.length_cons, hxlen, hylen]; omega
      have hweigh : 32 ^ ys.length = 2 ^ ((bits + 8) % 5) * 256 ^ bs.length *
          2 ^ (5 * ys.length - ((bits + 8) % 5 + 8 * bs.length)) := by
        rw [pow_32, pow_256, ← Nat.pow_add, ← Nat.pow_add]
        congr 1
        omega
      rw [number_append, hx, hynum, hpad, hweigh, List.map_cons, number_cons, List.length_map,
        List.length_cons]
      calc _ = (full / 2 ^ ((bits + 8) % 5) * 2 ^ ((bits + 8) % 5) + full % 2 ^ ((bits + 8) % 5)) *
            256 ^ bs.length * 2 ^ (5 * ys.length - ((bits + 8) % 5 + 8 * bs.length)) +
            number 256 (bs.map UInt8.toNat) *
              2 ^ (5 * ys.length - ((bits + 8) % 5 + 8 * bs.length)) := by ring
        _ = _ := by rw [← hsplit, hfull]; ring

@[simp] theorem length_encode (bs : List UInt8) : (encode bs).length = (8 * bs.length + 4) / 5 := by
  obtain ⟨vs, hvs, hlen, -⟩ := encodeFrom_eq bs 0 0 (by decide) (by decide)
  rw [encode, hvs, List.length_map, hlen, Nat.zero_add]

theorem decode?_encode (bs : List UInt8) : decode? (encode bs) = some bs := by
  obtain ⟨vs, hvs, hvlen, hvlt, hvnum⟩ :=
    encodeFrom_eq bs 0 0 (by decide) (by decide)
  have hread : List.Forall₂ (fun c v => digit? c = some v) (vs.map digit) vs := by
    refine List.forall₂_map_left_iff.2 (List.forall₂_same.2 fun v hv => ?_)
    rw [digit?_digit, Nat.mod_eq_of_lt (hvlt v hv)]
  obtain ⟨out, rest, hout, hlen, hrest, heq⟩ :=
    decodeFrom_eq hread 0 0 (by decide) (by decide)
  have hlen' : out.length = bs.length := by rw [hlen, hvlen]; omega
  have hpad : (0 + 5 * vs.length) % 8 = 5 * vs.length - (0 + 8 * bs.length) := by rw [hvlen]; omega
  rw [decode?, encode, hvs, hout]
  congr 1
  -- the bits that do not fill a byte are those that the writer has added
  rw [hpad] at hrest heq
  rw [hvnum, Nat.zero_mul, Nat.zero_mul, Nat.zero_add, Nat.zero_add] at heq
  have hpos := Nat.two_pow_pos (5 * vs.length - (0 + 8 * bs.length))
  have hnum : number 256 (bs.map UInt8.toNat) = number 256 (out.map UInt8.toNat) := by
    rw [← Nat.mul_div_cancel (number 256 (bs.map UInt8.toNat)) hpos, heq, Nat.add_comm,
      Nat.add_mul_div_right _ _ hpos, Nat.div_eq_of_lt hrest, Nat.zero_add]
  refine (List.map_inj_right fun _ _ => UInt8.toNat_inj.1).1
    (number_inj (by decide) ?_ ?_ ?_ hnum.symm)
  · simpa using hlen'
  all_goals
    intro x hx
    obtain ⟨b, -, rfl⟩ := List.mem_map.1 hx
    exact b.toNat_lt

/-! ### Bits -/

/-- The last `width` bits of a number, the highest first. -/
def bits : Nat → Nat → List Bool
  | 0, _ => []
  | width + 1, n => n.testBit width :: bits width n

@[simp] theorem length_bits (width n : Nat) : (bits width n).length = width := by
  induction width with
  | zero => rfl
  | succ width ih => rw [bits, List.length_cons, ih]

theorem bits_mul_add {n b : Nat} (hb : b < 2 ^ n) (m a : Nat) :
    bits (m + n) (a * 2 ^ n + b) = bits m a ++ bits n b := by
  have hbit := Nat.testBit_two_pow_mul_add a hb
  induction m with
  | zero =>
    have hlow : ∀ k ≤ n, bits k (a * 2 ^ n + b) = bits k b := by
      intro k hk
      induction k with
      | zero => rfl
      | succ k ih => rw [bits, bits, ih (by omega), Nat.mul_comm, hbit, if_pos (by omega)]
    rw [Nat.zero_add, hlow n (Nat.le_refl n)]
    rfl
  | succ m ih =>
    have hstep : m + 1 + n = m + n + 1 := by omega
    rw [hstep, bits, bits, ih, Nat.mul_comm, hbit, if_neg (by omega), Nat.add_sub_cancel]
    rfl

theorem number_lt {base : Nat} (hbase : 1 < base) {ds : List Nat} (h : ∀ d ∈ ds, d < base) :
    number base ds < base ^ ds.length := by
  have hlt := Nat.ofDigits_lt_base_pow_length hbase (l := ds.reverse) (by simpa using h)
  rwa [List.length_reverse] at hlt

/-- The bits of a number are those of its digits. -/
theorem bits_number {width : Nat} (hwidth : 0 < width) {ds : List Nat}
    (h : ∀ d ∈ ds, d < 2 ^ width) :
    bits (width * ds.length) (number (2 ^ width) ds) = ds.flatMap (bits width) := by
  induction ds with
  | nil => rfl
  | cons d ds ih =>
    rw [List.forall_mem_cons] at h
    have hlt := number_lt (Nat.one_lt_two_pow hwidth.ne') h.2
    rw [← Nat.pow_mul] at hlt
    have hlen : width * (d :: ds).length = width + width * ds.length := by
      rw [List.length_cons]
      ring
    rw [number_cons, ← Nat.pow_mul, hlen, bits_mul_add hlt, ih h.2, List.flatMap_cons]

theorem testBit_of_bits_eq {width m n : Nat} (h : bits width m = bits width n) :
    ∀ i < width, m.testBit i = n.testBit i := by
  induction width with
  | zero => simp
  | succ width ih =>
    obtain ⟨hhead, htail⟩ := List.cons.inj h
    intro i hi
    rcases Nat.lt_succ_iff_lt_or_eq.1 hi with hlt | rfl
    · exact ih htail i hlt
    · exact hhead

theorem bits_inj {a b : UInt8} (h : bits 8 a.toNat = bits 8 b.toNat) : a = b := by
  refine UInt8.toNat_inj.1 (Nat.eq_of_testBit_eq fun i => ?_)
  by_cases hi : i < 8
  · exact testBit_of_bits_eq h i hi
  · have hle : 2 ^ 8 ≤ 2 ^ i := Nat.pow_le_pow_right (by decide) (by omega)
    rw [Nat.testBit_lt_two_pow (a.toNat_lt.trans_le hle),
      Nat.testBit_lt_two_pow (b.toNat_lt.trans_le hle)]

/-- Bytes are known by their bits. -/
theorem flatMap_bits_inj {as bs : List UInt8} (h : as.flatMap (fun b => bits 8 b.toNat) =
    bs.flatMap (fun b => bits 8 b.toNat)) : as = bs := by
  induction as generalizing bs with
  | nil =>
    cases bs with
    | nil => rfl
    | cons b bs => simp [bits] at h
  | cons a as ih =>
    cases bs with
    | nil => simp [bits] at h
    | cons b bs =>
      rw [List.flatMap_cons, List.flatMap_cons] at h
      obtain ⟨hhead, htail⟩ := List.append_inj h (by rw [length_bits, length_bits])
      rw [bits_inj hhead, ih htail]

/-- The five bits of a digit. -/
def digitBits (c : Char) : List Bool := bits 5 ((digit? c).getD 0)

/-- The bytes that digits fill, and no more. -/
theorem exists_decode? {cs : List Char} (h : ∀ c ∈ cs, (digit? c).isSome = true) :
    ∃ out, decode? cs = some out ∧ out.length = 5 * cs.length / 8 ∧
      out.flatMap (fun b => bits 8 b.toNat) = (cs.flatMap digitBits).take (8 * out.length) := by
  set vs := cs.map fun c => (digit? c).getD 0 with hvs
  have hread : List.Forall₂ (fun c v => digit? c = some v) cs vs := by
    refine List.forall₂_map_right_iff.2 (List.forall₂_same.2 fun c hc => ?_)
    obtain ⟨v, hv⟩ := Option.isSome_iff_exists.1 (h c hc)
    rw [hv, Option.getD_some]
  have hvlen : vs.length = cs.length := List.length_map _
  have hvlt : ∀ v ∈ vs, v < 2 ^ 5 := by
    intro v hv
    obtain ⟨c, hc, rfl⟩ := List.mem_map.1 hv
    obtain ⟨w, hw⟩ := Option.isSome_iff_exists.1 (h c hc)
    rw [hw, Option.getD_some]
    exact digit?_lt hw
  obtain ⟨out, rest, hout, hlen, hrest, heq⟩ := decodeFrom_eq hread 0 0 (by decide) (by decide)
  rw [Nat.zero_add, hvlen] at hlen hrest heq
  rw [Nat.zero_mul, Nat.zero_add] at heq
  have hbyte : ∀ b ∈ out.map UInt8.toNat, b < 2 ^ 8 := by
    intro n hn
    obtain ⟨b, -, rfl⟩ := List.mem_map.1 hn
    exact b.toNat_lt
  have hwidth : 5 * vs.length = 8 * out.length + 5 * cs.length % 8 := by omega
  have hdigits : cs.flatMap digitBits = bits (5 * vs.length) (number 32 vs) := by
    have hnumber : bits (5 * vs.length) (number 32 vs) = vs.flatMap (bits 5) :=
      bits_number (by decide) hvlt
    rw [hnumber, hvs, List.flatMap_map]
    rfl
  have hbytes : out.flatMap (fun b => bits 8 b.toNat) =
      bits (8 * out.length) (number 256 (out.map UInt8.toNat)) := by
    have hnumber : bits (8 * (out.map UInt8.toNat).length) (number 256 (out.map UInt8.toNat)) =
        (out.map UInt8.toNat).flatMap (bits 8) := bits_number (by decide) hbyte
    rw [List.length_map, List.flatMap_map] at hnumber
    exact hnumber.symm
  refine ⟨out, hout, hlen, ?_⟩
  rw [hdigits, heq, hwidth, bits_mul_add hrest, hbytes]
  exact (List.take_left' (length_bits _ _)).symm

theorem isSome_digit?_of_mem_encode {bs : List UInt8} {c : Char} (h : c ∈ encode bs) :
    (digit? c).isSome = true := by
  obtain ⟨vs, hvs, -⟩ := encodeFrom_eq bs 0 0 (by decide) (by decide)
  rw [encode, hvs] at h
  obtain ⟨v, -, rfl⟩ := List.mem_map.1 h
  rw [digit?_digit]
  rfl

end Base32

namespace Digest
variable {size : Nat}

theorem length_text (d : Digest size) : d.text.toList.length = textLength size := by
  rw [text, String.toList_ofList, Base32.length_encode, d.length_bytes, textLength]

theorem isSome_digit?_of_mem_text {d : Digest size} {c : Char} (h : c ∈ d.text.toList) :
    (Base32.digit? c).isSome = true := by
  rw [text, String.toList_ofList] at h
  exact Base32.isSome_digit?_of_mem_encode h

/-- A text of the right length and of digits only is a digest, whose bits stand at its front. -/
theorem exists_ofText? {cs : List Char} (hlen : cs.length = textLength size)
    (h : ∀ c ∈ cs, (Base32.digit? c).isSome = true) :
    ∃ d, ofText? size cs = some d ∧ d.bytes.flatMap (fun b => Base32.bits 8 b.toNat) =
      (cs.flatMap Base32.digitBits).take (8 * size) := by
  obtain ⟨out, hout, houtlen, hbits⟩ := Base32.exists_decode? h
  have hsize : out.length = size := by
    rw [houtlen, hlen, textLength]
    omega
  refine ⟨⟨out, hsize⟩, ?_, by rw [hbits, hsize]⟩
  rw [ofText?, if_pos hlen, hout]
  simp [hsize]

theorem ofText?_text (d : Digest size) : ofText? size d.text.toList = some d := by
  rw [ofText?, if_pos d.length_text, text, String.toList_ofList, Base32.decode?_encode]
  simp [d.length_bytes]

@[simp] theorem parse?_text (d : Digest size) : parse? size d.text = some d := d.ofText?_text

end Digest
end HubConsole
