import HubConsole.Proofs.Base32

/-!
# Base 32 with an accumulator of 32 bits

`Reader` and `Writer` are the two loops on machine words: shifts, masks and a buffer that would lose
bits beyond 32. They come out with the same bytes (`Reader.bytes_run`) and digits (`Writer.text_run`)
as reading and writing with numbers of any size. For less than a byte waits in the buffer of the one
and less than a digit in that of the other (`Waits`), so that what is put in next makes 12 bits at
most.
-/

namespace HubConsole.Base32

/-! ### Words -/

/-- The word with `width` more bits at its end. -/
def put (buffer : UInt32) (width x : Nat) : UInt32 :=
  (buffer <<< UInt32.ofNat width) ||| UInt32.ofNat x

/-- The last `bits` bits of a word. -/
def keep (buffer : UInt32) (bits : Nat) : UInt32 := buffer &&& ((1 <<< UInt32.ofNat bits) - 1)

/-- The word without its last `bits` bits. -/
def drop (buffer : UInt32) (bits : Nat) : UInt32 := buffer >>> UInt32.ofNat bits

variable {buffer : UInt32} {bits width x : Nat}

theorem toNat_shift (hbuf : buffer.toNat < 2 ^ bits) (hfit : bits + width < 32) :
    (buffer <<< UInt32.ofNat width).toNat = buffer.toNat * 2 ^ width := by
  have hwidth : (UInt32.ofNat width).toNat % 32 = width := by
    rw [UInt32.toNat_ofNat']
    omega
  have hshift : buffer.toNat * 2 ^ width < 2 ^ 32 := by
    calc buffer.toNat * 2 ^ width < 2 ^ bits * 2 ^ width :=
          Nat.mul_lt_mul_of_pos_right hbuf (Nat.two_pow_pos width)
      _ = 2 ^ (bits + width) := (Nat.pow_add 2 bits width).symm
      _ ≤ 2 ^ 32 := Nat.pow_le_pow_right (by decide) hfit.le
  rw [UInt32.toNat_shiftLeft, hwidth, Nat.shiftLeft_eq, Nat.mod_eq_of_lt hshift]

theorem toNat_keep (h : bits < 32) : (keep buffer bits).toNat = buffer.toNat % 2 ^ bits := by
  have hbits : (UInt32.ofNat bits).toNat % 32 = bits := by
    rw [UInt32.toNat_ofNat']
    omega
  have hlt : 2 ^ bits < 2 ^ 32 := Nat.pow_lt_pow_right (by decide) h
  have hmask : ((1 : UInt32) <<< UInt32.ofNat bits).toNat = 2 ^ bits := by
    rw [UInt32.toNat_shiftLeft, hbits, Nat.shiftLeft_eq]
    show 1 * 2 ^ bits % 2 ^ 32 = 2 ^ bits
    rw [Nat.one_mul, Nat.mod_eq_of_lt hlt]
  have hle : (1 : UInt32) ≤ 1 <<< UInt32.ofNat bits := by
    rw [UInt32.le_iff_toNat_le, hmask]
    exact Nat.one_le_two_pow
  rw [keep, UInt32.toNat_and, UInt32.toNat_sub_of_le _ _ hle, hmask]
  exact Nat.and_two_pow_sub_one_eq_mod _ _

theorem toNat_drop (h : bits < 32) : (drop buffer bits).toNat = buffer.toNat / 2 ^ bits := by
  have hbits : (UInt32.ofNat bits).toNat % 32 = bits := by
    rw [UInt32.toNat_ofNat']
    omega
  rw [drop, UInt32.toNat_shiftRight, hbits, Nat.shiftRight_eq_div_pow]

/-- Fewer than `most` bits wait in the buffer. -/
structure Waits (most : Nat) (buffer : UInt32) (bits : Nat) : Prop where
  few : bits < most
  lt : buffer.toNat < 2 ^ bits

namespace Waits
variable {most : Nat}

theorem toNat_put (h : Waits most buffer bits) (hx : x < 2 ^ width) (hfit : most + width ≤ 32) :
    (put buffer width x).toNat = buffer.toNat * 2 ^ width + x := by
  have hfew := h.few
  have hword : x < 2 ^ 32 := hx.trans_le (Nat.pow_le_pow_right (by decide) (by omega))
  rw [put, UInt32.toNat_or, toNat_shift h.lt (by omega), UInt32.toNat_ofNat_of_lt' hword,
    Nat.mul_comm, Nat.two_pow_add_eq_or_of_lt hx]

theorem put_lt (h : Waits most buffer bits) (hx : x < 2 ^ width) (hfit : most + width ≤ 32) :
    (put buffer width x).toNat < 2 ^ (bits + width) := by
  rw [h.toNat_put hx hfit, Nat.pow_add]
  calc buffer.toNat * 2 ^ width + x < (buffer.toNat + 1) * 2 ^ width := by
        rw [Nat.succ_mul]
        exact Nat.add_lt_add_left hx _
    _ ≤ 2 ^ bits * 2 ^ width := Nat.mul_le_mul_right _ h.lt

/-- Masked, a buffer holds just what waits. -/
theorem keep (hfew : bits < most) (hmost : most ≤ 32) : Waits most (keep buffer bits) bits := by
  refine ⟨hfew, ?_⟩
  rw [toNat_keep (by omega)]
  exact Nat.mod_lt _ (Nat.two_pow_pos _)

theorem lt_two_pow (h : Waits most buffer bits) {n : Nat} (hn : most ≤ n) :
    buffer.toNat < 2 ^ n :=
  h.lt.trans_le (Nat.pow_le_pow_right (by decide) (by have := h.few; omega))

theorem put_lt_two_pow (h : Waits most buffer bits) (hx : x < 2 ^ width) {n : Nat}
    (hn : most + width ≤ n) (hfit : n ≤ 32) : (put buffer width x).toNat < 2 ^ n :=
  (h.put_lt hx (by omega)).trans_le (Nat.pow_le_pow_right (by decide) (by have := h.few; omega))

end Waits

/-! ### Reading -/

/-- The reading loop after some digits: bits that fill no byte yet, and the bytes so far. -/
structure Reader where
  buffer : UInt32
  bits : Nat
  bytes : List UInt8

namespace Reader

def start : Reader := ⟨0, 0, []⟩

/-- The buffer with one more digit. -/
def put (r : Reader) (v : Nat) : UInt32 := Base32.put r.buffer 5 v

def step (r : Reader) (v : Nat) : Reader :=
  let buffer := r.put v
  let bits := r.bits + 5
  if bits < 8 then ⟨buffer, bits, r.bytes⟩
  else ⟨keep buffer (bits - 8), bits - 8, r.bytes ++ [(drop buffer (bits - 8)).toUInt8]⟩

def next (r : Reader) (c : Char) : Option Reader := (digit? c).map r.step

/-- The loop over a text. Only digits can be read. -/
def run (cs : List Char) : Option Reader := cs.foldlM next start

def Sound (r : Reader) : Prop := Waits 8 r.buffer r.bits

variable {r : Reader} {v : Nat}

theorem sound_start : start.Sound := ⟨by decide, by decide⟩

theorem Sound.toNat_put (h : r.Sound) (hv : v < 32) : (r.put v).toNat = r.buffer.toNat * 32 + v :=
  Waits.toNat_put h hv (by decide)

theorem step_of_few (hfew : r.bits < 3) : r.step v = ⟨r.put v, r.bits + 5, r.bytes⟩ := by
  rw [step]
  exact if_pos (by omega)

/-- A byte goes out as soon as it is full. -/
theorem Sound.step_of_full (h : r.Sound) (hv : v < 32) (hfull : ¬ r.bits < 3) :
    r.step v = ⟨keep (r.put v) (r.bits - 3), r.bits - 3, r.bytes ++
      [UInt8.ofNat ((r.buffer.toNat * 32 + v) / 2 ^ (r.bits - 3))]⟩ := by
  have hfew := h.few
  have hsub : r.bits + 5 - 8 = r.bits - 3 := by omega
  have hbyte : (drop (r.put v) (r.bits - 3)).toUInt8 =
      UInt8.ofNat ((r.buffer.toNat * 32 + v) / 2 ^ (r.bits - 3)) := by
    rw [← UInt8.toNat_inj, UInt32.toNat_toUInt8, toNat_drop (by omega), h.toNat_put hv,
      UInt8.toNat_ofNat']
  simp only [step]
  rw [if_neg (by omega), hsub, hbyte]

theorem Sound.step (h : r.Sound) (hv : v < 32) : (r.step v).Sound := by
  have hbits := h.few
  by_cases hfew : r.bits < 3
  · rw [step_of_few hfew]
    exact ⟨by show r.bits + 5 < 8; omega, Waits.put_lt h hv (by decide)⟩
  · rw [h.step_of_full hv hfew]
    exact Waits.keep (by omega) (by decide)

theorem Sound.foldlM {cs : List Char} {t : Reader} (h : r.Sound) (hrun : cs.foldlM next r = some t) :
    t.Sound := by
  induction cs generalizing r with
  | nil => exact Option.some.inj hrun ▸ h
  | cons c cs ih =>
    rw [List.foldlM_cons] at hrun
    obtain ⟨u, hu, hrun⟩ := Option.bind_eq_some_iff.1 hrun
    obtain ⟨v, hv, rfl⟩ := Option.map_eq_some_iff.1 hu
    exact ih (h.step (digit?_lt hv)) hrun

/-- The loop goes on as the reader of numbers does. -/
theorem Sound.bytes_foldlM (h : r.Sound) (cs : List Char) :
    (cs.foldlM next r).map bytes = (decodeFrom r.buffer.toNat r.bits cs).map (r.bytes ++ ·) := by
  induction cs generalizing r with
  | nil => simp [decodeFrom]
  | cons c cs ih =>
    rw [List.foldlM_cons, decodeFrom, next]
    cases hc : digit? c with
    | none => rfl
    | some v =>
      have hv := digit?_lt hc
      show (cs.foldlM next (r.step v)).map bytes = _
      rw [ih (h.step hv)]
      by_cases hfew : r.bits < 3
      · rw [step_of_few hfew]
        simp [h.toNat_put hv, hfew]
      · have hbits := h.few
        have hbuffer : (keep (r.put v) (r.bits - 3)).toNat =
            (r.buffer.toNat * 32 + v) % 2 ^ (r.bits - 3) := by
          rw [toNat_keep (by omega), h.toNat_put hv]
        rw [h.step_of_full hv hfew, hbuffer]
        cases hrest : decodeFrom ((r.buffer.toNat * 32 + v) % 2 ^ (r.bits - 3)) (r.bits - 3) cs with
        | none => simp [hfew, hrest]
        | some rest => simp [hfew, hrest]

theorem bytes_run (cs : List Char) : (run cs).map bytes = decode? cs := by
  rw [run, sound_start.bytes_foldlM cs]
  show (decode? cs).map ([] ++ ·) = decode? cs
  simp

theorem sound_run {cs : List Char} (h : run cs = some r) : r.Sound := sound_start.foldlM h

/-- No bit gets lost: the buffer is small, and so is what a digit makes of it. -/
structure Bounded (r : Reader) : Prop where
  buffer : r.buffer.toNat < 2 ^ 13
  put : ∀ v < 32, (r.put v).toNat = r.buffer.toNat * 32 + v ∧ (r.put v).toNat < 2 ^ 13

theorem Sound.bounded (h : r.Sound) : r.Bounded :=
  ⟨Waits.lt_two_pow h (by decide), fun _ hv =>
    ⟨h.toNat_put hv, Waits.put_lt_two_pow h hv (by decide) (by decide)⟩⟩

end Reader

/-! ### Writing -/

/-- The digits that the last `bits` bits of a word fill, first bits first. -/
def wordDigits (buffer : UInt32) (bits : Nat) : List Char :=
  if bits < 5 then []
  else digit (drop buffer (bits - 5) &&& 31).toNat :: wordDigits buffer (bits - 5)
termination_by bits

theorem toNat_and_31 (w : UInt32) : (w &&& 31).toNat = w.toNat % 32 := by
  rw [UInt32.toNat_and]
  exact Nat.and_two_pow_sub_one_eq_mod w.toNat 5

theorem digit_mod (n : Nat) : digit (n % 32) = digit n := by simp [digit]

theorem wordDigits_eq (h : bits < 32) : wordDigits buffer bits = fullDigits buffer.toNat bits := by
  induction bits using Nat.strongRecOn with
  | ind bits ih =>
    rw [wordDigits, fullDigits]
    split
    · rfl
    · rw [ih (bits - 5) (by omega) (by omega), toNat_and_31, digit_mod, toNat_drop (by omega)]
      rfl

/-- The writing loop after some bytes: bits that fill no digit yet, and the digits so far. -/
structure Writer where
  buffer : UInt32
  bits : Nat
  digits : List Char

namespace Writer

def start : Writer := ⟨0, 0, []⟩

/-- The buffer with one more byte. -/
def put (w : Writer) (b : UInt8) : UInt32 := Base32.put w.buffer 8 b.toNat

def step (w : Writer) (b : UInt8) : Writer :=
  let buffer := w.put b
  let bits := w.bits + 8
  ⟨keep buffer (bits % 5), bits % 5, w.digits ++ wordDigits buffer bits⟩

/-- The loop over a list of bytes. -/
def run (bs : List UInt8) : Writer := bs.foldl step start

/-- The bits that are left, moved to the front of a digit. -/
def last (w : Writer) : UInt32 := w.buffer <<< UInt32.ofNat (5 - w.bits)

/-- All digits, the last one filled up with zero bits. -/
def text (w : Writer) : List Char :=
  if w.bits = 0 then w.digits else w.digits ++ [digit (w.last &&& 31).toNat]

def Sound (w : Writer) : Prop := Waits 5 w.buffer w.bits

variable {w : Writer}

theorem sound_start : start.Sound := ⟨by decide, by decide⟩

theorem Sound.toNat_put (h : w.Sound) (b : UInt8) :
    (w.put b).toNat = w.buffer.toNat * 256 + b.toNat :=
  Waits.toNat_put h b.toNat_lt (by decide)

theorem Sound.toNat_last (h : w.Sound) : w.last.toNat = w.buffer.toNat * 2 ^ (5 - w.bits) := by
  have hfew := h.few
  exact toNat_shift h.lt (by omega)

theorem Sound.last_lt (h : w.Sound) : w.last.toNat < 2 ^ 5 := by
  have hfew := h.few
  rw [h.toNat_last]
  calc w.buffer.toNat * 2 ^ (5 - w.bits) < 2 ^ w.bits * 2 ^ (5 - w.bits) :=
        Nat.mul_lt_mul_of_pos_right h.lt (Nat.two_pow_pos _)
    _ = 2 ^ 5 := by rw [← Nat.pow_add, Nat.add_sub_cancel' (Nat.le_of_lt hfew)]

theorem sound_step (w : Writer) (b : UInt8) : (w.step b).Sound :=
  Waits.keep (Nat.mod_lt _ (by decide)) (by decide)

theorem Sound.foldl (h : w.Sound) (bs : List UInt8) : (bs.foldl step w).Sound := by
  induction bs generalizing w with
  | nil => exact h
  | cons b bs ih => exact ih (sound_step w b)

theorem Sound.text_eq (h : w.Sound) :
    w.text = w.digits ++ encodeFrom w.buffer.toNat w.bits [] := by
  rw [text, encodeFrom, toNat_and_31, digit_mod, h.toNat_last]
  split
  · rw [List.append_nil]
  · rfl

/-- The loop goes on as the writer of numbers does. -/
theorem Sound.text_foldl (h : w.Sound) (bs : List UInt8) :
    (bs.foldl step w).text = w.digits ++ encodeFrom w.buffer.toNat w.bits bs := by
  induction bs generalizing w with
  | nil => exact h.text_eq
  | cons b bs ih =>
    have hfew := h.few
    have hbuffer : (w.step b).buffer.toNat =
        (w.buffer.toNat * 256 + b.toNat) % 2 ^ ((w.bits + 8) % 5) := by
      show (keep (w.put b) ((w.bits + 8) % 5)).toNat = _
      rw [toNat_keep (by omega), h.toNat_put]
    have hdigits : (w.step b).digits =
        w.digits ++ fullDigits (w.buffer.toNat * 256 + b.toNat) (w.bits + 8) := by
      show w.digits ++ wordDigits (w.put b) (w.bits + 8) = _
      rw [wordDigits_eq (by omega), h.toNat_put]
    rw [List.foldl_cons, ih (sound_step w b), hbuffer, hdigits, encodeFrom, List.append_assoc]
    rfl

theorem text_run (bs : List UInt8) : (run bs).text = encode bs := sound_start.text_foldl bs

theorem sound_run (bs : List UInt8) : (run bs).Sound := sound_start.foldl bs

/-- No bit gets lost: the buffer is small, and so is what a byte or the end makes of it. -/
structure Bounded (w : Writer) : Prop where
  buffer : w.buffer.toNat < 2 ^ 13
  put : ∀ b : UInt8, (w.put b).toNat = w.buffer.toNat * 256 + b.toNat ∧ (w.put b).toNat < 2 ^ 13
  last : w.last.toNat = w.buffer.toNat * 2 ^ (5 - w.bits) ∧ w.last.toNat < 2 ^ 13

theorem Sound.bounded (h : w.Sound) : w.Bounded :=
  ⟨Waits.lt_two_pow h (by decide), fun b =>
    ⟨h.toNat_put b, Waits.put_lt_two_pow h b.toNat_lt (by decide) (by decide)⟩,
    h.toNat_last, h.last_lt.trans (by decide)⟩

end Writer
end HubConsole.Base32
