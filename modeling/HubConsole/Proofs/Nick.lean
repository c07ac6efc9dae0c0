import HubConsole.Proofs.Layers

/-! # Nicks

A text is accepted as a nick iff it is neither empty nor longer than 32 bytes and holds none of the
characters that are barred (`assigns_nick`). In ASCII the bytes are the characters; a nick in other
letters may have fewer of them. -/

namespace HubConsole
open Setting Text

/-- What may be a nick. -/
structure IsNick (raw : String) : Prop where
  nonempty : raw ≠ ""
  short : raw.utf8ByteSize ≤ 32
  plain : ∀ c ∈ raw.toList, isBlank c = false ∧ c ∉ ['$', '|', '<', '>']

namespace Setting.Check
variable {raw : String}

theorem isBarredFromNick_eq_false_iff {c : Char} :
    isBarredFromNick c = false ↔ isBlank c = false ∧ c ∉ ['$', '|', '<', '>'] := by
  have hbarred : "$|<>".toList = ['$', '|', '<', '>'] := by decide
  simp [isBarredFromNick, hbarred]

theorem tooLong_iff : (raw.toList.isEmpty || decide (nickLimit < byteLength raw.toList)) = true ↔
    raw = "" ∨ 32 < raw.utf8ByteSize := by
  rw [utf8ByteSize_eq_byteLength, Bool.or_eq_true, decide_eq_true_eq, List.isEmpty_iff,
    String.toList_eq_nil_iff]
  exact Iff.rfl

theorem run_nick_of_not_isNick (h : ¬ IsNick raw) : nick.run raw =
    .error (if raw = "" ∨ 32 < raw.utf8ByteSize then .nickLength else .nickCharacter) := by
  simp only [run]
  by_cases hlength : raw = "" ∨ 32 < raw.utf8ByteSize
  · rw [if_pos (tooLong_iff.2 hlength), if_pos hlength]
    rfl
  · rw [if_neg (mt tooLong_iff.1 hlength), if_neg hlength]
    have hbarred : raw.toList.any isBarredFromNick = true := by
      by_contra hnone
      rw [Bool.not_eq_true, List.any_eq_false] at hnone
      rw [not_or, Nat.not_lt] at hlength
      refine h ⟨hlength.1, hlength.2, fun c hc => isBarredFromNick_eq_false_iff.1 ?_⟩
      simpa using hnone c hc
    rw [hbarred]
    rfl

theorem run_nick_eq_ok_iff : nick.run raw = .ok () ↔ IsNick raw := by
  constructor
  · intro h
    by_contra hnot
    rw [run_nick_of_not_isNick hnot] at h
    cases h
  · intro h
    have hlength : ¬ (raw = "" ∨ 32 < raw.utf8ByteSize) := by
      rintro (hempty | hlong)
      · exact h.nonempty hempty
      · exact Nat.not_lt.2 h.short hlong
    have hplain : raw.toList.any isBarredFromNick = false := by
      rw [List.any_eq_false]
      intro c hc
      rw [isBarredFromNick_eq_false_iff.2 (h.plain c hc)]
      simp
    simp only [run]
    rw [if_neg (mt tooLong_iff.1 hlength), hplain]
    rfl

end Setting.Check

namespace IsNick
variable {raw : String}

theorem length_le (h : IsNick raw) : raw.length ≤ 32 := by
  have hbytes := length_le_byteLength raw.toList
  rw [← utf8ByteSize_eq_byteLength, String.length_toList] at hbytes
  exact hbytes.trans h.short

/-- In ASCII it is the characters that are counted. -/
theorem iff_of_ascii (h : ∀ c ∈ raw.toList, c.toNat < 128) : IsNick raw ↔
    1 ≤ raw.length ∧ raw.length ≤ 32 ∧
      ∀ c ∈ raw.toList, isBlank c = false ∧ c ∉ ['$', '|', '<', '>'] := by
  have hbytes : raw.utf8ByteSize = raw.length := by
    rw [utf8ByteSize_eq_byteLength, byteLength_of_ascii h, String.length_toList]
  have hempty : raw ≠ "" ↔ 1 ≤ raw.length := by
    rw [← String.length_toList, Nat.one_le_iff_ne_zero, Ne, Ne, List.length_eq_zero_iff,
      String.toList_eq_nil_iff]
  constructor
  · intro hnick
    exact ⟨hempty.1 hnick.nonempty, hnick.length_le, hnick.plain⟩
  · rintro ⟨hone, hshort, hplain⟩
    exact ⟨hempty.2 hone, hbytes.trans_le hshort, hplain⟩

end IsNick

namespace Store
variable {raw : String}

theorem holdsChecked_nick : HoldsChecked "nick" .both .nick := by decide

theorem allows_both (scope : Scope) : Tiers.both.allows scope = true := by
  cases scope <;> rfl

theorem exists_assign_nick_iff (s : Store) (scope : Scope) :
    (∃ t r, s.assign scope "nick" raw = .ok (t, r)) ↔ IsNick raw :=
  (holdsChecked_nick.exists_assign_iff (allows_both scope)).trans Check.run_nick_eq_ok_iff

/-- In every scope a text is accepted as a nick, and stored as it stands, iff it has from 1 to 32
bytes and no barred character. If not, it is refused for its length or else for a character, and
nothing changes. A nick has no more than 32 characters, and in ASCII these are what counts. -/
theorem assigns_nick (s : Store) (scope : Scope) (raw : String) :
    ((∃ t r, s.assign scope "nick" raw = .ok (t, r)) ↔ IsNick raw) ∧
    (∀ t r, s.assign scope "nick" raw = .ok (t, r) →
      t = s.set scope.id "nick" raw ∧ t.get? scope.id "nick" = some raw) ∧
    (¬ IsNick raw → s.change (.assign scope "nick" raw) = s ∧
      s.assign scope "nick" raw = .error (.refused
        (if raw = "" ∨ 32 < raw.utf8ByteSize then .nickLength else .nickCharacter))) ∧
    (IsNick raw → raw.length ≤ 32) ∧
    ((∀ c ∈ raw.toList, c.toNat < 128) → (IsNick raw ↔ 1 ≤ raw.length ∧ raw.length ≤ 32 ∧
      ∀ c ∈ raw.toList, isBlank c = false ∧ c ∉ ['$', '|', '<', '>'])) := by
  refine ⟨exists_assign_nick_iff s scope, fun t r h => ?_, fun h => ?_, IsNick.length_le,
    IsNick.iff_of_ascii⟩
  · obtain rfl := holdsChecked_nick.eq_set_of_assign (allows_both scope) h
    exact ⟨rfl, get?_set_self ..⟩
  · have hrefused := holdsChecked_nick.assign_eq_error (s := s) (allows_both scope)
      (Check.run_nick_of_not_isNick h)
    refine ⟨?_, hrefused⟩
    unfold change Change.run
    dsimp only
    rw [hrefused]

/-- It is not so that characters are counted: 17 letters with an accent are 34 bytes. -/
theorem not_assigns_nick : ¬ ∀ (s : Store) (scope : Scope) (raw : String),
    (∃ t r, s.assign scope "nick" raw = .ok (t, r)) ↔
      1 ≤ raw.length ∧ raw.length ≤ 32 ∧
        ∀ c ∈ raw.toList, isBlank c = false ∧ c ∉ ['$', '|', '<', '>'] := by
  intro h
  have hnot : ¬ IsNick "ééééééééééééééééé" := fun hnick => absurd hnick.short (by decide)
  have hletters : "ééééééééééééééééé".toList = List.replicate 17 'é' := by decide
  have hplain : ∀ c ∈ "ééééééééééééééééé".toList, isBlank c = false ∧ c ∉ ['$', '|', '<', '>'] := by
    intro c hc
    rw [hletters] at hc
    obtain rfl := List.eq_of_mem_replicate hc
    decide
  have haccepted :=
    (h (empty "/") .global "ééééééééééééééééé").2 ⟨by decide, by decide, hplain⟩
  exact hnot ((exists_assign_nick_iff _ _).1 haccepted)

end Store
end HubConsole
