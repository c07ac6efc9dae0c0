import Mathlib.Data.List.Nodup

/-! # Repeated items of a list

`List.eraseDups` keeps each item where it stands first. If only some of the items are taken then,
one that is missing is so for want of room (`length_of_not_mem_take`). -/

namespace HubConsole
variable {α : Type} [BEq α]

/-- Of repeated items the first one is kept. -/
theorem eraseDups_sublist (l : List α) : l.eraseDups.Sublist l := by
  match l with
  | [] => exact List.Sublist.refl []
  | a :: l =>
    rw [List.eraseDups_cons]
    exact ((eraseDups_sublist _).trans List.filter_sublist).cons_cons a
termination_by l.length
decreasing_by exact Nat.lt_succ_of_le (List.length_filter_le _ _)

variable [LawfulBEq α] {a : α} {before after : List α} {n : Nat}

theorem nodup_eraseDups (l : List α) : l.eraseDups.Nodup := by
  match l with
  | [] => exact List.nodup_nil
  | a :: l =>
    rw [List.eraseDups_cons, List.nodup_cons]
    refine ⟨fun hmem => ?_, nodup_eraseDups _⟩
    rw [List.mem_eraseDups, List.mem_filter] at hmem
    simp at hmem
termination_by l.length
decreasing_by exact Nat.lt_succ_of_le (List.length_filter_le _ _)

/-- If an item is not taken, then so many are taken from those before it. -/
theorem length_of_not_mem_take (h : a ∉ (before ++ a :: after).eraseDups.take n) :
    ((before ++ a :: after).eraseDups.take n).length = n ∧
      ∀ b ∈ (before ++ a :: after).eraseDups.take n, b ∈ before := by
  rw [List.eraseDups_append] at h ⊢
  have hfull : n ≤ before.eraseDups.length := by
    refine Nat.le_of_not_lt fun hlt => h ?_
    rw [List.take_append]
    by_cases hbefore : a ∈ before
    · have ha : a ∈ before.eraseDups := List.mem_eraseDups.2 hbefore
      rw [List.take_of_length_le (Nat.le_of_lt hlt)]
      exact List.mem_append_left _ ha
    · -- it is the first one of those that come new after `before`
      have hnew : (a :: after).removeAll before = a :: after.removeAll before := by
        simp [List.removeAll, hbefore]
      obtain ⟨k, hk⟩ : ∃ k, n - before.eraseDups.length = k + 1 :=
        ⟨n - before.eraseDups.length - 1, by omega⟩
      rw [hnew, List.eraseDups_cons, hk, List.take_succ_cons]
      exact List.mem_append_right _ List.mem_cons_self
  rw [List.take_append_of_le_length hfull]
  refine ⟨by rw [List.length_take, Nat.min_eq_left hfull], fun b hb => ?_⟩
  exact List.mem_eraseDups.1 (List.mem_of_mem_take hb)

end HubConsole
