import Mathlib.Tactic.SplitIfs

/-! # The order of texts by their bytes

Texts are in the order of their code points, which is also the order of the bytes that they are
written as (`utf8_lt_iff`). -/

namespace HubConsole.Text

/-- The bytes of a text. -/
def utf8 (s : String) : List UInt8 := s.toUTF8.data.toList

theorem utf8_eq_flatMap (s : String) : utf8 s = s.toList.flatMap String.utf8EncodeChar := by
  rw [utf8, String.toUTF8_eq_toByteArray, ← String.utf8Encode_toList, List.utf8Encode,
    List.data_toByteArray]

theorem toNat_lt_limit (c : Char) : c.val.toNat < 0x110000 := by
  rcases c.valid with h | ⟨-, h⟩
  · exact Nat.lt_trans h (by decide)
  · exact h

/-- Numbers are compared by all but their last six bits, and then by these. -/
theorem lt_iff_div_mod (m n : Nat) :
    m < n ↔ m / 64 < n / 64 ∨ (m / 64 = n / 64 ∧ m % 64 < n % 64) := by
  omega

/-- The bytes of a character come before those of a later one, whatever follows them. -/
theorem utf8EncodeChar_append_lt {c d : Char} (h : c < d) (as bs : List UInt8) :
    String.utf8EncodeChar c ++ as < String.utf8EncodeChar d ++ bs := by
  have hlt : c.val.toNat < d.val.toNat := h
  have hbound := toNat_lt_limit d
  have hdiv : ∀ n : Nat, n / 4096 = n / 64 / 64 ∧ n / 262144 = n / 64 / 64 / 64 := fun n =>
    ⟨by rw [Nat.div_div_eq_div_mul], by rw [Nat.div_div_eq_div_mul, Nat.div_div_eq_div_mul]⟩
  -- the order of the two code points as that of their groups of six bits
  have hlex := hlt
  rw [lt_iff_div_mod, lt_iff_div_mod (_ / 64), lt_iff_div_mod (_ / 64 / 64)] at hlex
  unfold String.utf8EncodeChar
  dsimp only
  simp only [hdiv]
  split_ifs <;>
    simp (disch := omega) only [List.cons_append, List.nil_append, List.cons_lt_cons_iff,
      UInt8.lt_iff_toNat_lt, ← UInt8.toNat_inj, UInt8.toNat_ofNat',
      Nat.mod_eq_of_lt (b := 2 ^ 8)] <;>
    omega

theorem flatMap_utf8EncodeChar_lt {cs ds : List Char} (h : cs < ds) :
    cs.flatMap String.utf8EncodeChar < ds.flatMap String.utf8EncodeChar := by
  induction cs generalizing ds with
  | nil =>
    cases ds with
    | nil => exact absurd h (List.lt_irrefl [])
    | cons d ds =>
      rw [List.flatMap_nil, List.flatMap_cons]
      obtain ⟨b, bs, hbs⟩ := List.exists_cons_of_ne_nil (String.utf8EncodeChar_ne_nil (c := d))
      rw [hbs]
      exact List.nil_lt_cons _ _
  | cons c cs ih =>
    cases ds with
    | nil => exact absurd h (List.not_lt_nil _)
    | cons d ds =>
      rw [List.flatMap_cons, List.flatMap_cons]
      rcases List.cons_lt_cons_iff.1 h with hlt | ⟨rfl, hlt⟩
      · exact utf8EncodeChar_append_lt hlt _ _
      · exact List.append_left_lt (ih hlt)

theorem utf8_lt_iff {s t : String} : utf8 s < utf8 t ↔ s < t := by
  have hlt : ∀ {s t : String}, s < t → utf8 s < utf8 t := by
    intro s t h
    rw [utf8_eq_flatMap, utf8_eq_flatMap]
    exact flatMap_utf8EncodeChar_lt (String.lt_iff.1 h)
  refine ⟨fun h => String.not_le.1 fun hle => ?_, hlt⟩
  rcases Decidable.em (t < s) with hts | hts
  · exact List.lt_asymm h (hlt hts)
  · have heq := String.le_antisymm hle (String.not_lt.1 hts)
    exact List.lt_irrefl _ (heq ▸ h)

-- pairs of 16 bits would be in the other order
example : utf8 "\uffff" < utf8 "😀" := by decide

end HubConsole.Text
