import HubConsole.Proofs.Repetition
import HubConsole.Proofs.Store

/-! # Hubs by name and by id

A hub is known by the name stored under its id (`Store.Known`). Where no two hubs have the same name,
a name leads back to its hub. A new name gets an id under which nothing is stored
(`get?_of_unusedHubId?`); all other names stay with their ids (`NamesGrow`). -/

namespace HubConsole.Store
open Setting

variable {s t : Store} {hub k : HubId} {name : String}

/-- The hub has a name. -/
def Known (s : Store) (hub : HubId) : Prop := hub ≠ 0 ∧ ∃ name, s.get? hub hubName = some name

/-- No two hubs have the same name. -/
def DistinctNames (s : Store) : Prop :=
  ∀ i j name, i ≠ 0 → j ≠ 0 → s.get? i hubName = some name → s.get? j hubName = some name → i = j

theorem mem_hubs_iff : (hub, name) ∈ s.hubs ↔ hub ≠ 0 ∧ s.get? hub hubName = some name := by
  unfold hubs
  simp only [List.mem_map, List.mem_filter, Bool.and_eq_true, bne_iff_ne, beq_iff_eq,
    Prod.mk.injEq, mem_entries_iff]
  constructor
  · rintro ⟨e, ⟨he, hne, hname⟩, rfl, rfl⟩
    exact ⟨hne, hname ▸ he⟩
  · rintro ⟨hne, hget⟩
    exact ⟨⟨hub, hubName, name⟩, ⟨hget, hne, rfl⟩, rfl, rfl⟩

theorem DistinctNames.of_nodup (h : (s.hubs.map Prod.snd).Nodup) : s.DistinctNames := by
  intro i j name hi hj hiname hjname
  have heq := List.inj_on_of_nodup_map h (mem_hubs_iff.2 ⟨hi, hiname⟩)
    (mem_hubs_iff.2 ⟨hj, hjname⟩) rfl
  exact congrArg Prod.fst heq

theorem mem_hubIds_iff : hub ∈ s.hubIds ↔ s.Known hub := by
  unfold hubIds Known
  rw [List.mem_map]
  constructor
  · rintro ⟨⟨k, name⟩, hmem, rfl⟩
    obtain ⟨hne, hget⟩ := mem_hubs_iff.1 hmem
    exact ⟨hne, name, hget⟩
  · rintro ⟨hne, name, hget⟩
    exact ⟨(hub, name), mem_hubs_iff.2 ⟨hne, hget⟩, rfl⟩

theorem mem_hubNames_iff : name ∈ s.hubNames ↔
    ∃ hub, hub ≠ 0 ∧ s.get? hub hubName = some name := by
  unfold hubNames
  rw [List.mem_mergeSort, List.mem_map]
  constructor
  · rintro ⟨⟨hub, name⟩, hmem, rfl⟩
    exact ⟨hub, mem_hubs_iff.1 hmem⟩
  · rintro ⟨hub, hget⟩
    exact ⟨(hub, name), mem_hubs_iff.2 hget, rfl⟩

theorem findHub?_eq_none_iff :
    s.findHub? name = none ↔ ∀ hub, hub ≠ 0 → s.get? hub hubName ≠ some name := by
  unfold findHub?
  rw [Option.map_eq_none_iff, List.find?_eq_none]
  constructor
  · intro h hub hne hget
    exact h (hub, name) (mem_hubs_iff.2 ⟨hne, hget⟩) (by simp)
  · rintro h ⟨hub, value⟩ hmem hvalue
    obtain ⟨hne, hget⟩ := mem_hubs_iff.1 hmem
    rw [beq_iff_eq] at hvalue
    exact h hub hne (hvalue ▸ hget)

/-- A hub is found by its name. -/
theorem DistinctNames.findHub? (h : s.DistinctNames) (hne : hub ≠ 0)
    (hget : s.get? hub hubName = some name) : s.findHub? name = some hub := by
  cases hfind : s.findHub? name with
  | none => exact absurd hget (findHub?_eq_none_iff.1 hfind hub hne)
  | some k =>
    obtain ⟨hk, hkget⟩ := findHub?_eq_some hfind
    rw [h k hub name hk hne hkget hget]

theorem nameOfHub_eq (h : s.get? hub hubName = some name) : s.nameOfHub hub = name := by
  rw [nameOfHub, h, Option.getD_some]

/-! ## Unused ids -/

/-- Entries are in the order of their scopes. -/
theorem pairwise_scopes (s : Store) : (s.entries.map (·.scope)).Pairwise (· ≤ ·) := by
  rw [List.pairwise_map]
  refine s.sorted.imp fun {e f} hlt => ?_
  rcases hlt with hlt | ⟨heq, -⟩
  · exact UInt64.le_of_lt hlt
  · exact UInt64.le_of_eq heq

theorem mem_usedIds_iff_scope : hub ∈ s.usedIds ↔ ∃ e ∈ s.entries, e.scope = hub := by
  rw [usedIds, List.mem_eraseDups, List.mem_map]

theorem mem_usedIds_iff : hub ∈ s.usedIds ↔ ∃ name value, s.get? hub name = some value := by
  rw [mem_usedIds_iff_scope]
  constructor
  · rintro ⟨e, he, rfl⟩
    exact ⟨e.name, e.value, mem_entries_iff.1 he⟩
  · rintro ⟨name, value, hget⟩
    exact ⟨⟨hub, name, value⟩, mem_entries_iff.2 hget, rfl⟩

/-- The last of the ids in use is the largest one. -/
theorem le_of_getLast?_usedIds {last : HubId} (hlast : s.usedIds.getLast? = some last)
    (h : hub ∈ s.usedIds) : hub ≤ last := by
  obtain ⟨before, hids⟩ := List.getLast?_eq_some_iff.1 hlast
  have hsorted : s.usedIds.Pairwise (· ≤ ·) := s.pairwise_scopes.sublist (eraseDups_sublist _)
  rw [hids] at hsorted h
  rcases List.mem_append.1 h with h | h
  · exact (List.pairwise_append.1 hsorted).2.2 hub h last List.mem_cons_self
  · exact UInt64.le_of_eq (List.mem_singleton.1 h)

theorem not_mem_usedIds_of_unusedHubId? (h : s.unusedHubId? = some hub) : hub ∉ s.usedIds := by
  unfold unusedHubId? at h
  dsimp only at h
  split at h
  · next hlt =>
    intro hmem
    cases hlast : s.usedIds.getLast? with
    | none =>
      rw [List.getLast?_eq_none_iff.1 hlast] at hmem
      cases hmem
    | some last =>
      -- the id after the last one, which has not wrapped around
      have hle := UInt64.le_iff_toNat_le.1 (le_of_getLast?_usedIds hlast hmem)
      rw [hlast] at h hlt
      have hlt' : last.toNat + 1 < 2 ^ 64 := by
        have hbound : last.toNat < 2 ^ 64 - 1 := hlt
        omega
      rw [← Option.some.inj h, Option.map_some, Option.getD_some, UInt64.toNat_ofNat',
        Nat.mod_eq_of_lt hlt'] at hle
      omega
  · have hfree := List.find?_some h
    simpa using hfree

/-- Nothing is stored under an unused id. -/
theorem get?_of_unusedHubId? (h : s.unusedHubId? = some hub) (name : String) :
    s.get? hub name = none := by
  rw [Option.eq_none_iff_forall_ne_some]
  intro value hget
  exact not_mem_usedIds_of_unusedHubId? h (mem_usedIds_iff.2 ⟨name, value, hget⟩)

/-! ## Opening hubs by name -/

/-- A hub is opened under the id of its name, or under an unused one if the name is new. -/
theorem hubNamed?_eq_some_iff : s.hubNamed? name = some (t, hub) ↔
    (s.findHub? name = some hub ∧ t = s) ∨
    (s.findHub? name = none ∧ s.unusedHubId? = some hub ∧ t = s.set hub hubName name) := by
  unfold hubNamed?
  cases hfind : s.findHub? name with
  | some k => simp [Prod.ext_iff, and_comm, eq_comm]
  | none =>
    simp only [Option.map_eq_some_iff, Prod.mk.injEq, reduceCtorEq, false_and, true_and, false_or]
    constructor
    · rintro ⟨k, hk, rfl, rfl⟩
      exact ⟨hk, rfl⟩
    · rintro ⟨hk, rfl⟩
      exact ⟨hub, hk, rfl, rfl⟩

theorem DistinctNames.hubNamed? (h : s.DistinctNames) (hne : hub ≠ 0)
    (hget : s.get? hub hubName = some name) : s.hubNamed? name = some (s, hub) :=
  hubNamed?_eq_some_iff.2 (.inl ⟨h.findHub? hne hget, rfl⟩)

/-- A hub has the name by which it was opened. -/
theorem get?_of_hubNamed? (h : s.hubNamed? name = some (t, hub)) :
    t.get? hub hubName = some name := by
  rcases hubNamed?_eq_some_iff.1 h with ⟨hfind, rfl⟩ | ⟨-, -, rfl⟩
  · exact (findHub?_eq_some hfind).2
  · exact get?_set_self ..

/-- What may become of the names of hubs: a new one may be bound to an unused id, and the others stay
as they are. -/
inductive NamesGrow (s t : Store) : Prop
  | kept (names : ∀ k, t.get? k hubName = s.get? k hubName)
  | bound {hub : HubId} {name : String} (new : s.findHub? name = none)
      (unused : s.unusedHubId? = some hub)
      (names : ∀ k, t.get? k hubName = if hub = k then some name else s.get? k hubName)

namespace NamesGrow

theorem hubNamed? (h : s.hubNamed? name = some (t, hub)) : s.NamesGrow t := by
  rcases hubNamed?_eq_some_iff.1 h with ⟨-, rfl⟩ | ⟨hnew, hunused, rfl⟩
  · exact .kept fun _ => rfl
  · exact .bound hnew hunused fun k => by rw [get?_set]; simp

theorem trans_kept {u : Store} (h : s.NamesGrow t)
    (hu : ∀ k, u.get? k hubName = t.get? k hubName) : s.NamesGrow u := by
  cases h with
  | kept names => exact .kept fun k => (hu k).trans (names k)
  | bound new unused names => exact .bound new unused fun k => (hu k).trans (names k)

/-- A name that is bound to an id stays bound to it. -/
theorem get? (h : s.NamesGrow t) (hget : s.get? hub hubName = some name) :
    t.get? hub hubName = some name := by
  cases h with
  | kept names => rw [names, hget]
  | @bound k _ new unused names =>
    have hne : k ≠ hub := by
      rintro rfl
      rw [get?_of_unusedHubId? unused] at hget
      cases hget
    rw [names, if_neg hne, hget]

theorem known (h : s.NamesGrow t) (hknown : s.Known hub) : t.Known hub := by
  obtain ⟨hne, name, hget⟩ := hknown
  exact ⟨hne, name, h.get? hget⟩

theorem distinctNames (h : s.NamesGrow t) (hs : s.DistinctNames) : t.DistinctNames := by
  intro i j name hi hj hiname hjname
  cases h with
  | kept names => exact hs i j name hi hj ((names i).symm.trans hiname) ((names j).symm.trans hjname)
  | @bound k _ new unused names =>
    have hnew := findHub?_eq_none_iff.1 new
    rw [names] at hiname hjname
    split at hiname
    · next hki =>
      obtain rfl := Option.some.inj hiname
      split at hjname
      · next hkj => exact hki.symm.trans hkj
      · exact absurd hjname (hnew j hj)
    · split at hjname
      · obtain rfl := Option.some.inj hjname
        exact absurd hiname (hnew i hi)
      · exact hs i j name hi hj hiname hjname

/-- An id that gets a name had nothing stored under it. -/
theorem get?_of_bound (h : s.NamesGrow t) (hnone : s.get? hub hubName = none)
    (hget : t.get? hub hubName = some name) : hub ≠ 0 ∧ ∀ n, s.get? hub n = none := by
  cases h with
  | kept names =>
    rw [names, hnone] at hget
    cases hget
  | @bound k _ new unused names =>
    rw [names, hnone] at hget
    split at hget
    · next heq => exact heq ▸ ⟨unusedHubId?_ne_zero unused, get?_of_unusedHubId? unused⟩
    · cases hget

end NamesGrow
end HubConsole.Store
