import HubConsole.Proofs.Base32

/-!
# Writing base 32 that was read

Reading ignores letter case and drops the bits that do not fill a byte, so what is written again may
differ from what was read. `encode_of_decode?`: with as many digits as the bytes take, it is the text
in upper case but for those bits of the last digit, which are written as zero. With one, three or six
digits more than full groups of eight, the last of them holds no bit of a byte, and what is written is
shorter. `encode_eq_upper_iff` puts both together.
-/

namespace HubConsole
open Text

namespace Base32
variable {c : Char} {cs init : List Char} {bs : List UInt8} {k v : Nat}

/-! ### Digits and their values -/

/-- The value of a digit. -/
def value (c : Char) : Nat := (digit? c).getD 0

theorem digit?_eq_value (h : (digit? c).isSome = true) : digit? c = some (value c) := by
  obtain ⟨v, hv⟩ := Option.isSome_iff_exists.1 h
  rw [value, hv, Option.getD_some]

theorem value_lt (h : (digit? c).isSome = true) : value c < 32 := digit?_lt (digit?_eq_value h)

theorem toNat_lt_of_digit? (h : (digit? c).isSome = true) : c.toNat < 128 := by
  rcases isAlphanum_iff.1 (isAlphanum_of_digit? h) with hc | hc | hc
  all_goals omega

theorem digit_value (h : (digit? c).isSome = true) : digit (value c) = upperAscii c := by
  refine char_cases (P := fun c => (digit? c).isSome = true → digit (value c) = upperAscii c)
    ?_ (fun c hc hdigit => ?_) c h
  · decide
  · have hlt := toNat_lt_of_digit? hdigit
    omega

theorem digit?_upperAscii (h : (digit? c).isSome = true) :
    digit? (upperAscii c) = some (value c) := by
  rw [← digit_value h, digit?_digit, Nat.mod_eq_of_lt (value_lt h)]

theorem digit_inj {m n : Nat} (hm : m < 32) (hn : n < 32) (h : digit m = digit n) : m = n := by
  have hread := congrArg digit? h
  rw [digit?_digit, digit?_digit, Nat.mod_eq_of_lt hm, Nat.mod_eq_of_lt hn] at hread
  exact Option.some.inj hread

/-! ### The last digit -/

/-- The digit with its last `k` bits set to zero. -/
def clear (k : Nat) (c : Char) : Char := (digit? c).elim c fun v => digit (v / 2 ^ k * 2 ^ k)

/-- The text with the last `k` bits of its last digit set to zero. -/
def clearLast (k : Nat) (cs : List Char) : List Char :=
  cs.dropLast ++ (cs.getLast?.map (clear k)).toList

@[simp] theorem clearLast_concat : clearLast k (init ++ [c]) = init ++ [clear k c] := by
  simp [clearLast]

theorem clear_upperAscii (h : (digit? c).isSome = true) :
    clear k (upperAscii c) = digit (value c / 2 ^ k * 2 ^ k) := by
  rw [clear, digit?_upperAscii h, Option.elim_some]

theorem clear_eq_upper_iff (h : (digit? c).isSome = true) :
    clear k (upperAscii c) = upperAscii c ↔ value c % 2 ^ k = 0 := by
  have hv := value_lt h
  have hsplit := Nat.div_add_mod' (value c) (2 ^ k)
  rw [clear_upperAscii h, ← digit_value h]
  constructor
  · intro heq
    have hmultiple := digit_inj (by omega) hv heq
    omega
  · intro hzero
    rw [hzero, Nat.add_zero] at hsplit
    rw [hsplit]

/-! ### What was read -/

theorem isSome_digit?_of_decodeFrom {buffer bits : Nat} (h : decodeFrom buffer bits cs = some bs) :
    ∀ c ∈ cs, (digit? c).isSome = true := by
  induction cs generalizing buffer bits bs with
  | nil => simp
  | cons c cs ih =>
    rw [decodeFrom] at h
    obtain ⟨v, hv, h⟩ := Option.bind_eq_some_iff.1 h
    rw [List.forall_mem_cons]
    refine ⟨by rw [hv, Option.isSome_some], ?_⟩
    dsimp only at h
    split at h
    · exact ih h
    · obtain ⟨rest, hrest, -⟩ := Option.bind_eq_some_iff.1 h
      exact ih hrest

theorem isSome_digit?_of_decode? (h : decode? cs = some bs) : ∀ c ∈ cs, (digit? c).isSome = true :=
  isSome_digit?_of_decodeFrom h

/-- The numbers of digits and of the bytes that they fill differ by the bits that are left. -/
theorem number_of_decode? (h : decode? cs = some bs) :
    ∃ rest < 2 ^ (5 * cs.length % 8), bs.length = 5 * cs.length / 8 ∧
      number 32 (cs.map value) =
        number 256 (bs.map UInt8.toNat) * 2 ^ (5 * cs.length % 8) + rest := by
  have hread : List.Forall₂ (fun c v => digit? c = some v) cs (cs.map value) :=
    List.forall₂_map_right_iff.2 (List.forall₂_same.2 fun c hc =>
      digit?_eq_value (isSome_digit?_of_decode? h c hc))
  obtain ⟨out, rest, hout, hlen, hrest, heq⟩ := decodeFrom_eq hread 0 0 (by decide) (by decide)
  obtain rfl : bs = out := Option.some.inj (h.symm.trans hout)
  rw [Nat.zero_add, List.length_map] at hlen hrest heq
  rw [Nat.zero_mul, Nat.zero_add] at heq
  exact ⟨rest, hrest, hlen, heq⟩

theorem length_of_decode? (h : decode? cs = some bs) : bs.length = 5 * cs.length / 8 := by
  obtain ⟨-, -, hlen, -⟩ := number_of_decode? h
  exact hlen

/-- A multiple of `2 ^ k` next below a number differs from it in the last digit only. -/
theorem number_concat_div (hk : k ≤ 5) {vs : List Nat} {m rest : Nat} (hrest : rest < 2 ^ k)
    (h : number 32 (vs ++ [v]) = m * 2 ^ k + rest) :
    m * 2 ^ k = number 32 (vs ++ [v / 2 ^ k * 2 ^ k]) := by
  have hconcat : ∀ d, number 32 (vs ++ [d]) = number 32 vs * 32 + d := by
    intro d
    rw [number_append]
    simp [number_cons]
  have hpow : 2 ^ k * 2 ^ (5 - k) = 32 := by rw [← Nat.pow_add, Nat.add_sub_cancel' hk]
  have hpos := Nat.two_pow_pos k
  rw [hconcat] at h ⊢
  have hm : m = number 32 vs * 2 ^ (5 - k) + v / 2 ^ k := by
    calc m = (m * 2 ^ k + rest) / 2 ^ k := by
          rw [Nat.mul_comm, Nat.mul_add_div hpos, Nat.div_eq_of_lt hrest, Nat.add_zero]
      _ = (2 ^ k * (number 32 vs * 2 ^ (5 - k)) + v) / 2 ^ k := by
          rw [← h, ← hpow]
          ring_nf
      _ = _ := Nat.mul_add_div hpos _ _
  rw [hm, ← hpow]
  ring

/-- What is written again is the text in upper case, but for the bits that fill no byte. -/
theorem encode_of_decode? (h : decode? cs = some bs) (hk : 5 * cs.length % 8 < 5) :
    encode bs = clearLast (5 * cs.length % 8) (cs.map upperAscii) := by
  set k := 5 * cs.length % 8 with hkdef
  obtain ⟨rest, hrest, hlen, heq⟩ := number_of_decode? h
  obtain ⟨ws, hws, hwlen, hwlt, hwnum⟩ := encodeFrom_eq bs 0 0 (by decide) (by decide)
  have hwlen' : ws.length = cs.length := by omega
  have hpad : 5 * ws.length - (0 + 8 * bs.length) = k := by omega
  rw [Nat.zero_mul, Nat.zero_add, hpad] at hwnum
  rw [encode, hws]
  have hdigits := isSome_digit?_of_decode? h
  rcases List.eq_nil_or_concat' cs with rfl | ⟨init, c, rfl⟩
  · obtain rfl := List.eq_nil_of_length_eq_zero hwlen'
    rfl
  · rw [List.forall_mem_append, List.forall_mem_singleton] at hdigits
    rw [List.map_append, List.map_singleton, ← hkdef] at heq
    rw [number_concat_div (by omega) hrest heq] at hwnum
    have hc := value_lt hdigits.2
    have hlow : value c / 2 ^ k * 2 ^ k ≤ value c := Nat.div_mul_le_self _ _
    have hsame : ws = init.map value ++ [value c / 2 ^ k * 2 ^ k] := by
      refine number_inj (by decide) (by simpa using hwlen') hwlt ?_ hwnum
      rw [List.forall_mem_append, List.forall_mem_map, List.forall_mem_singleton]
      exact ⟨fun d hd => value_lt (hdigits.1 d hd), by omega⟩
    have hinit : init.map (digit ∘ value) = init.map upperAscii :=
      List.map_congr_left fun d hd => digit_value (hdigits.1 d hd)
    rw [hsame, List.map_append, List.map_map, hinit, List.map_append, List.map_singleton,
      List.map_singleton, clearLast_concat, clear_upperAscii hdigits.2]

/-- What is written again is the text in upper case iff all its bits fill bytes or are zero. -/
theorem encode_eq_upper_iff (h : decode? cs = some bs) :
    encode bs = cs.map upperAscii ↔ cs.length % 8 ∉ [1, 3, 6] ∧
      ∀ c ∈ cs.getLast?, value c % 2 ^ (5 * cs.length % 8) = 0 := by
  have hshort : cs.length % 8 ∉ [1, 3, 6] ↔ 5 * cs.length % 8 < 5 := by
    have hrem : ∀ r < 8, r ∉ [1, 3, 6] ↔ 5 * r % 8 < 5 := by decide
    have hmod : 5 * cs.length % 8 = 5 * (cs.length % 8) % 8 := by omega
    rw [hmod]
    exact hrem _ (Nat.mod_lt _ (by decide))
  rw [hshort]
  by_cases hk : 5 * cs.length % 8 < 5
  · rw [encode_of_decode? h hk, and_iff_right hk]
    have hdigits := isSome_digit?_of_decode? h
    generalize 5 * cs.length % 8 = k
    rcases List.eq_nil_or_concat' cs with rfl | ⟨init, c, rfl⟩
    · simp [clearLast]
    · have hc : (digit? c).isSome = true := hdigits c (by simp)
      rw [List.map_append, List.map_singleton, clearLast_concat, List.append_cancel_left_eq,
        List.singleton_inj, clear_eq_upper_iff hc]
      simp
  · refine iff_of_false (fun heq => hk ?_) fun hand => hk hand.1
    have hlen := congrArg List.length heq
    rw [length_encode, length_of_decode? h, List.length_map] at hlen
    omega

end Base32
end HubConsole
