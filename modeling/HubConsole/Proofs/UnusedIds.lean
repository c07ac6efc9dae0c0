import HubConsole.Proofs.HubIds

/-! # How an unused id is found

A hub without an id gets the one after the largest. If there is none after it, all ids are gone through
from 1 on (`scan`), and only as many can be passed over as are in use, so that a search among the first
few ids finds the same (`smallestFree?_eq_scan`). The main statement is `allots_unused`. -/

namespace HubConsole.Store

/-- Goes through the ids from `id` on, up to the largest one, until one of them is not in `used`. Gives
the number of ids that are looked at and the one that is found. -/
def scan (used : List HubId) (id : Nat) : Nat × Option HubId :=
  if id ≤ maxHubId then
    if used.contains (UInt64.ofNat id) then
      ((scan used (id + 1)).1 + 1, (scan used (id + 1)).2)
    else (1, some (UInt64.ofNat id))
  else (0, none)
termination_by maxHubId + 1 - id

/-- The ids that are looked at but for the last one. -/
def passed (used : List HubId) (id : Nat) : List HubId :=
  (List.range ((scan used id).1 - 1)).map fun i => UInt64.ofNat (id + i)

/-- The result of a search among the ids from `id` on: the smallest one that is not in `used`, or
nothing if all are. -/
inductive Finds (used : List HubId) (id : Nat) : Option HubId → Prop
  | free {hub : HubId} (le : id ≤ hub.toNat) (unused : hub ∉ used)
      (least : ∀ k : HubId, id ≤ k.toNat → k ∉ used → hub ≤ k) : Finds used id (some hub)
  | none (all : ∀ k : HubId, id ≤ k.toNat → k ∈ used) : Finds used id none

/-- What is to come of a search for an unused id: the one after the largest id in use, or the smallest
unused one if there is none after it. -/
structure Allots (s : Store) (result : Option HubId) : Prop where
  unused : ∀ hub ∈ result, hub ≠ 0 ∧ ∀ e ∈ s.entries, e.scope ≠ hub
  next : ∀ last ∈ s.entries, (∀ e ∈ s.entries, e.scope ≤ last.scope) →
    last.scope.toNat + 1 < UInt64.size → ∃ hub ∈ result, hub.toNat = last.scope.toNat + 1
  first : (∀ e ∈ s.entries, e.scope = 0) → result = some 1
  least : (∃ e ∈ s.entries, e.scope.toNat + 1 = UInt64.size) →
    ∀ hub ∈ result, ∀ k : HubId, k ≠ 0 → (∀ e ∈ s.entries, e.scope ≠ k) → hub ≤ k
  steps : (∃ e ∈ s.entries, e.scope.toNat + 1 = UInt64.size) →
    ∃ n ≤ s.usedIds.length + 1, scan s.usedIds 1 = (n, result)
  eq_none_iff : result = none ↔ ∀ hub : HubId, hub ≠ 0 → ∃ e ∈ s.entries, e.scope = hub

variable {s : Store} {used : List HubId} {hub last : HubId} {id n : Nat}

theorem toNat_le_maxHubId (hub : HubId) : hub.toNat ≤ maxHubId := Nat.le_of_lt_succ hub.toNat_lt

theorem one_le_toNat (h : hub ≠ 0) : 1 ≤ hub.toNat :=
  Nat.pos_of_ne_zero fun hzero => h (UInt64.toNat_inj.1 hzero)

theorem toNat_ofNat_of_le (h : id ≤ maxHubId) : (UInt64.ofNat id).toNat = id :=
  UInt64.toNat_ofNat_of_lt' (Nat.lt_succ_of_le h)

/-! ## Going through the ids -/

/-- The search goes on after an id in use. -/
theorem Finds.pass {result : Option HubId} (hle : id ≤ maxHubId) (hused : UInt64.ofNat id ∈ used)
    (h : Finds used (id + 1) result) : Finds used id result := by
  have hnext {k : HubId} (hk : id ≤ k.toNat) (hfree : k ∉ used) : id + 1 ≤ k.toNat := by
    refine Nat.lt_of_le_of_ne hk fun heq => hfree ?_
    rwa [← UInt64.toNat_inj.1 ((toNat_ofNat_of_le hle).trans heq)]
  cases h with
  | free le unused least =>
    exact .free (Nat.le_of_succ_le le) unused fun k hk hfree => least k (hnext hk hfree) hfree
  | none all => exact .none fun k hk => by_contra fun hfree => hfree (all k (hnext hk hfree))

theorem finds_scan (used : List HubId) (id : Nat) : Finds used id (scan used id).2 := by
  fun_induction scan used id with
  | case1 id hle hused ih => exact ih.pass hle (List.contains_iff_mem.1 hused)
  | case2 id hle hfree =>
    have heq := toNat_ofNat_of_le hle
    refine .free (Nat.le_of_eq heq.symm) (by simpa using hfree) fun k hk _ => ?_
    rw [UInt64.le_iff_toNat_le, heq]
    exact hk
  | case3 id hlt => exact .none fun k hk => absurd (Nat.le_trans hk (toNat_le_maxHubId k)) hlt

/-- Only ids in use are passed over. -/
theorem mem_used_of_lt_scan {i : Nat} (h : i + 1 < (scan used id).1) :
    id + i ≤ maxHubId ∧ UInt64.ofNat (id + i) ∈ used := by
  fun_induction scan used id generalizing i with
  | case1 id hle hused ih =>
    cases i with
    | zero => exact ⟨hle, List.contains_iff_mem.1 hused⟩
    | succ i =>
      rw [← Nat.add_assoc, Nat.add_right_comm]
      exact ih (Nat.lt_of_succ_lt_succ h)
  | case2 id hle hfree => exact absurd h (by simp)
  | case3 id hlt => exact absurd h (Nat.not_lt_zero _)

theorem mem_used_of_mem_passed {k : HubId} (h : k ∈ passed used id) : k ∈ used := by
  obtain ⟨i, hi, rfl⟩ := List.mem_map.1 h
  exact (mem_used_of_lt_scan (Nat.add_lt_of_lt_sub (List.mem_range.1 hi))).2

/-- The ids do not wrap around, so none of them is passed over twice. -/
theorem nodup_passed (used : List HubId) (id : Nat) : (passed used id).Nodup := by
  refine List.Nodup.map_on (fun i hi j hj heq => ?_) List.nodup_range
  have hle {i : Nat} (hi : i ∈ List.range ((scan used id).1 - 1)) : id + i ≤ maxHubId :=
    (mem_used_of_lt_scan (Nat.add_lt_of_lt_sub (List.mem_range.1 hi))).1
  have hnat := congrArg UInt64.toNat heq
  rw [toNat_ofNat_of_le (hle hi), toNat_ofNat_of_le (hle hj)] at hnat
  exact Nat.add_left_cancel hnat

theorem scan_le_length (used : List HubId) (id : Nat) : (scan used id).1 ≤ used.length + 1 := by
  have hlength := (nodup_passed used id).length_le_of_subset fun _ => mem_used_of_mem_passed
  rw [passed, List.length_map, List.length_range] at hlength
  omega

theorem scan_le_maxHubId (h : id ≤ maxHubId + 1) : (scan used id).1 ≤ maxHubId + 1 - id := by
  fun_induction scan used id with
  | case1 id hle hused ih =>
    have hrest := ih (by omega)
    dsimp only
    omega
  | case2 id hle hfree => dsimp only; omega
  | case3 id hlt => exact Nat.zero_le _

/-- A search among the first `n` ids finds the same if it is long enough. -/
theorem find?_eq_scan (hn : (scan used id).1 ≤ n) (hmax : id + n ≤ maxHubId + 1) :
    ((List.range' id n).map UInt64.ofNat).find? (fun k => !used.contains k) = (scan used id).2 := by
  induction n generalizing id with
  | zero =>
    unfold scan at hn ⊢
    split_ifs at hn ⊢ <;> first | rfl | cases hn
  | succ n ih =>
    have hle : id ≤ maxHubId := by omega
    rw [List.range'_succ, List.map_cons, List.find?_cons]
    unfold scan at hn ⊢
    rw [if_pos hle] at hn ⊢
    cases hused : used.contains (UInt64.ofNat id) with
    | false => rfl
    | true =>
      rw [if_pos hused] at hn
      exact ih (Nat.le_of_succ_le_succ hn) (by omega)

theorem smallestFree?_eq_scan (used : List HubId) : smallestFree? used = (scan used 1).2 := by
  have hids : ((List.range (min (used.length + 1) maxHubId)).map fun i => UInt64.ofNat (i + 1)) =
      (List.range' 1 (min (used.length + 1) maxHubId)).map UInt64.ofNat := by
    rw [List.range'_eq_map_range, List.map_map]
    exact List.map_congr_left fun i _ => by rw [Function.comp_apply, Nat.add_comm]
  have hmax : min (used.length + 1) maxHubId ≤ maxHubId := Nat.min_le_right _ _
  rw [smallestFree?, hids]
  refine find?_eq_scan (Nat.le_min.2 ⟨scan_le_length used 1, ?_⟩) (by omega)
  exact scan_le_maxHubId (by omega)

example : smallestFree? [0, 1, 3, 18446744073709551615] = some 2 := by decide

/-! ## The ids in use -/

theorem not_mem_usedIds_iff : hub ∉ s.usedIds ↔ ∀ e ∈ s.entries, e.scope ≠ hub := by
  rw [mem_usedIds_iff_scope]
  push Not
  rfl

theorem getLast?_usedIds (h : last ∈ s.usedIds) (hmax : ∀ k ∈ s.usedIds, k ≤ last) :
    s.usedIds.getLast? = some last := by
  cases hlast : s.usedIds.getLast? with
  | none =>
    rw [List.getLast?_eq_none_iff.1 hlast] at h
    cases h
  | some k =>
    have hle := hmax k (List.mem_of_getLast? hlast)
    rw [UInt64.le_antisymm hle (le_of_getLast?_usedIds hlast h)]

theorem unusedHubId?_of_lt (hlast : s.usedIds.getLast? = some last) (h : last.toNat < maxHubId) :
    s.unusedHubId? = some (UInt64.ofNat (last.toNat + 1)) := by
  rw [unusedHubId?, hlast]
  exact if_pos h

theorem unusedHubId?_of_zero (h : ∀ k ∈ s.usedIds, k = 0) : s.unusedHubId? = some 1 := by
  cases hlast : s.usedIds.getLast? with
  | none =>
    rw [unusedHubId?, hlast]
    rfl
  | some last =>
    obtain rfl := h last (List.mem_of_getLast? hlast)
    rw [unusedHubId?_of_lt hlast (by decide)]
    rfl

/-- If the largest id is in use, all ids are gone through. -/
theorem unusedHubId?_of_max (h : ∃ e ∈ s.entries, e.scope.toNat + 1 = UInt64.size) :
    s.unusedHubId? = (scan s.usedIds 1).2 := by
  obtain ⟨e, he, hmax⟩ := h
  have hmax : e.scope.toNat = maxHubId := Nat.eq_sub_of_add_eq hmax
  have hlast : s.usedIds.getLast? = some e.scope :=
    getLast?_usedIds (mem_usedIds_iff_scope.2 ⟨e, he, rfl⟩) fun k _ =>
      UInt64.le_iff_toNat_le.2 (hmax ▸ toNat_le_maxHubId k)
  rw [unusedHubId?, hlast, ← smallestFree?_eq_scan]
  exact if_neg (Nat.not_lt.2 (Nat.le_of_eq hmax.symm))

/-- Unless the largest id is in use, there is one after the last. -/
theorem exists_max_of_unusedHubId?_eq_none (h : s.unusedHubId? = none) :
    ∃ e ∈ s.entries, e.scope.toNat + 1 = UInt64.size := by
  cases hlast : s.usedIds.getLast? with
  | none =>
    rw [unusedHubId?, hlast] at h
    cases h
  | some last =>
    obtain ⟨e, he, rfl⟩ := mem_usedIds_iff_scope.1 (List.mem_of_getLast? hlast)
    refine ⟨e, he, Nat.le_antisymm e.scope.toNat_lt_size (Nat.le_of_not_lt fun hlt => ?_)⟩
    rw [unusedHubId?_of_lt hlast (Nat.lt_sub_of_add_lt hlt)] at h
    cases h

theorem unusedHubId?_eq_none_iff : s.unusedHubId? = none ↔ ∀ hub, hub ≠ 0 → hub ∈ s.usedIds := by
  constructor
  · intro h hub hne
    have hfinds := finds_scan s.usedIds 1
    rw [← unusedHubId?_of_max (exists_max_of_unusedHubId?_eq_none h), h] at hfinds
    cases hfinds with
    | none all => exact all hub (one_le_toNat hne)
  · intro h
    refine Option.eq_none_iff_forall_ne_some.2 fun hub hub? => ?_
    exact not_mem_usedIds_of_unusedHubId? hub? (h hub (unusedHubId?_ne_zero hub?))

/-- A new hub gets an id that is not in use, the one after the largest as long as there is one after
it, and there is none for it only if all ids are in use. -/
theorem allots_unused (s : Store) : s.Allots s.unusedHubId? where
  unused hub h := ⟨unusedHubId?_ne_zero h, not_mem_usedIds_iff.1 (not_mem_usedIds_of_unusedHubId? h)⟩
  next last hmem hmax hlt := by
    have hlast : s.usedIds.getLast? = some last.scope := by
      refine getLast?_usedIds (mem_usedIds_iff_scope.2 ⟨last, hmem, rfl⟩) fun k hk => ?_
      obtain ⟨e, he, rfl⟩ := mem_usedIds_iff_scope.1 hk
      exact hmax e he
    have hlt : last.scope.toNat < maxHubId := Nat.lt_sub_of_add_lt hlt
    exact ⟨_, unusedHubId?_of_lt hlast hlt, toNat_ofNat_of_le hlt⟩
  first h := by
    refine unusedHubId?_of_zero fun k hk => ?_
    obtain ⟨e, he, rfl⟩ := mem_usedIds_iff_scope.1 hk
    exact h e he
  least hmax hub hresult k hne hunused := by
    have hfinds := finds_scan s.usedIds 1
    rw [← unusedHubId?_of_max hmax, hresult] at hfinds
    cases hfinds with
    | free le unused least => exact least k (one_le_toNat hne) (not_mem_usedIds_iff.2 hunused)
  steps hmax := ⟨_, scan_le_length s.usedIds 1, Prod.ext rfl (unusedHubId?_of_max hmax).symm⟩
  eq_none_iff := by
    rw [unusedHubId?_eq_none_iff]
    exact forall₂_congr fun hub _ => mem_usedIds_iff_scope

end HubConsole.Store
