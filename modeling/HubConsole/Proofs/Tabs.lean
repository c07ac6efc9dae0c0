import HubConsole.Tab
import Mathlib.Data.List.Nodup

/-! # Opening and closing tabs

What is opened is there and looked at. No tab is there twice (`Tabs.Distinct`), whatever is opened
or closed; so no hub is there twice among those with a tab. -/

namespace HubConsole.Tabs
variable {ts : Tabs} {t u : Tab}

@[simp] theorem mem_add : u ∈ (ts.add t).all ↔ u ∈ ts.all ∨ u = t := by
  unfold add
  split
  · next h =>
    refine ⟨.inl, ?_⟩
    rintro (hu | rfl)
    · exact hu
    · exact h
  · simp

@[simp] theorem all_focus : (ts.focus t).all = (ts.add t).all := rfl

/-- The tab that one goes to is the current one. -/
@[simp] theorem current_focus : (ts.focus t).current = t := by
  have hmem : t ∈ (ts.add t).all := mem_add.2 (.inr rfl)
  have hlt := List.idxOf_lt_length_of_mem hmem
  show (ts.add t).all.getD ((ts.add t).all.idxOf t) .main = t
  rw [List.getD_eq_getElem?_getD, List.getElem?_eq_getElem hlt, List.getElem_idxOf hlt]
  rfl

/-- To go to a tab once more changes nothing. -/
theorem focus_focus : (ts.focus t).focus t = ts.focus t := by
  have hmem : t ∈ (ts.focus t).all := mem_add.2 (.inr rfl)
  have hadd : (ts.focus t).add t = ts.focus t := if_pos hmem
  unfold focus at hadd ⊢
  simp only [hadd]
  rfl

/-- Any tab but the main one is the current one because it stands at the position. -/
theorem getElem?_position (h : ts.current ≠ .main) : ts.all[ts.position]? = some ts.current := by
  unfold current at h ⊢
  rw [List.getD_eq_getElem?_getD] at h ⊢
  cases hget : ts.all[ts.position]? with
  | none => simp [hget] at h
  | some u => rfl

theorem current_mem (h : ts.current ≠ .main) : ts.current ∈ ts.all :=
  List.mem_of_getElem? (getElem?_position h)

theorem mem_hubs {hub : HubId} : hub ∈ ts.hubs ↔ .hub hub ∈ ts.all := by
  unfold hubs
  rw [List.mem_filterMap]
  constructor
  · rintro ⟨u, hu, hown⟩
    cases u <;> simp_all [Tab.ownHub?]
  · exact fun h => ⟨_, h, rfl⟩

/-- No tab is there twice. -/
def Distinct (ts : Tabs) : Prop := ts.all.Nodup

theorem distinct_start : start.Distinct := by simp [Distinct, start]

namespace Distinct

theorem add (h : ts.Distinct) : (ts.add t).Distinct := by
  unfold Tabs.add
  split
  · exact h
  · next hnot =>
    refine List.nodup_append.2 ⟨h, List.nodup_singleton t, fun u hu v hv => ?_⟩
    rw [List.mem_singleton.1 hv]
    exact fun e => hnot (e ▸ hu)

theorem keep_filter (h : ts.Distinct) (f : Tab → Bool) : (ts.keep (ts.all.filter f)).Distinct :=
  h.filter f

theorem hubs (h : ts.Distinct) : ts.hubs.Nodup := by
  refine List.Nodup.filterMap (fun a b hub ha hb => ?_) h
  cases a <;> cases b <;> simp_all [Tab.ownHub?]

end Distinct
end HubConsole.Tabs
