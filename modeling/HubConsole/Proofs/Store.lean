import HubConsole.Proofs.Result
import HubConsole.Setting.Notes
import Mathlib.Data.List.Nodup

/-! # What can be stored

What the operations on the store come to: settings that the user can see are read, assigned and
cleared at their tiers only, and hubs get names under ids that are not 0. -/

namespace HubConsole

/-- An entry that is there is found in its place. -/
theorem Setting.insertEntry_of_mem {e : Entry} {es : List Entry} (h : Sorted es) (he : e ∈ es) :
    insertEntry e es = es := by
  induction es with
  | nil => cases he
  | cons f es ih =>
    obtain ⟨hf, hes⟩ := List.pairwise_cons.1 h
    unfold insertEntry
    rcases List.mem_cons.1 he with rfl | he
    · rw [if_pos (by simp [Entry.isAt])]
    · have hbefore : Entry.Before f e := hf e he
      have hnot : ¬ Entry.Before e f := by
        intro hlt
        have hself := (hlt.trans hbefore).ne
        simp [Entry.isAt] at hself
      rw [if_neg (by simp [hbefore.ne]), if_neg hnot, ih hes he]

namespace Store
open Setting Result

variable {s t : Store} {d : Definition} {scope : Scope} {name raw : String} {r : Resolved}
  {hub : HubId} {e : Error}

/-- To store what is stored changes nothing. -/
theorem set_of_get? {value : String} (h : s.get? hub name = some value) :
    s.set hub name value = s := by
  obtain ⟨home, es, hsorted⟩ := s
  have hmem : ⟨hub, name, value⟩ ∈ es := hsorted.mem_iff.2 h
  simp [Store.set, insertEntry_of_mem hsorted hmem]

/-- The notes on hubs are no settings that the user can see. -/
theorem visible_name_ne {note : String} (hd : d ∈ visible)
    (hn : note ∈ [hubName, hubAddress, hubKeyprint]) : d.name ≠ note := by
  have h : ∀ d ∈ visible, ∀ n ∈ [hubName, hubAddress, hubKeyprint], d.name ≠ n := by decide
  exact h d hd note hn

/-- No two settings have the same name. -/
theorem nodup_names : (definitions.map (·.name)).Nodup := by decide

theorem find?_name_eq_some_iff {ds : List Definition} (h : (ds.map (·.name)).Nodup) :
    (ds.find? fun d => d.name == name) = some d ↔ d.name = name ∧ d ∈ ds := by
  constructor
  · intro h
    exact ⟨by simpa using List.find?_some h, List.mem_of_find?_eq_some h⟩
  · rintro ⟨rfl, hd⟩
    cases hfind : ds.find? fun e => e.name == d.name with
    | none =>
      have hnot := List.find?_eq_none.1 hfind d hd
      simp at hnot
    | some e =>
      have hname : e.name = d.name := by simpa using List.find?_some hfind
      have hmem := List.mem_of_find?_eq_some hfind
      rw [List.inj_on_of_nodup_map h hmem hd hname]

theorem find?_eq_some_iff : Setting.find? name = some d ↔ d.name = name ∧ d ∈ definitions :=
  find?_name_eq_some_iff nodup_names

theorem nodup_visible_names : (visible.map (·.name)).Nodup :=
  nodup_names.sublist (List.filter_sublist.map _)

theorem mem_visible_iff : d ∈ visible ↔ d ∈ definitions ∧ d.hidden = false := by
  simp [visible, List.mem_filter]

theorem definition_eq_ok_iff : definition name = .ok d ↔ d.name = name ∧ d ∈ visible := by
  rw [mem_visible_iff, ← and_assoc, ← find?_eq_some_iff]
  unfold definition
  cases Setting.find? name with
  | none => simp
  | some e =>
    dsimp only
    split
    · next hhidden =>
      simp only [throw_ne_ok, Option.some.injEq, false_iff, not_and]
      rintro rfl
      simp [hhidden]
    · next hshown =>
      simp only [pure_eq_ok_iff, Option.some.injEq, iff_self_and]
      rintro rfl
      simpa using hshown

theorem definition_eq_error_iff :
    definition name = .error e ↔ e = .unknown name ∧ ∀ d ∈ visible, d.name ≠ name := by
  have hunknown : ∀ {e}, definition name = .error e → e = .unknown name := by
    intro e h
    unfold definition at h
    split at h
    · split at h
      · exact (Except.error.inj h).symm
      · cases h
    · exact (Except.error.inj h).symm
  constructor
  · intro h
    refine ⟨hunknown h, fun d hd hname => ?_⟩
    rw [definition_eq_ok_iff.2 ⟨hname, hd⟩] at h
    cases h
  · rintro ⟨rfl, hnone⟩
    cases h : definition name with
    | ok d =>
      obtain ⟨hname, hd⟩ := definition_eq_ok_iff.1 h
      exact absurd hname (hnone d hd)
    | error e => rw [hunknown h]

theorem checkTier_eq_ok_iff {action : Action} {u : Unit} :
    checkTier d scope action = .ok u ↔ d.tiers.allows scope = true := by
  unfold checkTier
  cases h : d.tiers.allows scope with
  | true => simp
  | false => cases scope <;> simp

/-- Why a setting of another tier is refused in a scope. -/
def refusal (name : String) (action : Action) : Scope → Error
  | .hub _ => .globalOnly name action
  | .global => .hubOnly name action

theorem checkTier_eq_error_iff {action : Action} : checkTier d scope action = .error e ↔
    e = refusal d.name action scope ∧ d.tiers.allows scope = false := by
  unfold checkTier refusal
  cases d.tiers.allows scope with
  | true => simp
  | false => cases scope <;> simpa using eq_comm

/-- What an accepted text is stored as. -/
theorem canonical_eq_ok_iff {value : String} : s.canonical d raw = .ok value ↔
    ∃ v, d.kind.parse s.home raw = .ok v ∧ (∀ check ∈ d.check?, check.run v.raw = .ok ()) ∧
      v.raw = value := by
  unfold canonical
  cases hparse : d.kind.parse s.home raw with
  | error e => cases hcheck : d.check? <;> simp
  | ok v =>
    cases hcheck : d.check? with
    | none => simp
    | some check => cases hrun : check.run v.raw <;> simp [hrun]

theorem assign_eq_ok_iff : s.assign scope name raw = .ok (t, r) ↔
    ∃ d v, definition name = .ok d ∧ d.tiers.allows scope = true ∧
      d.kind.parse s.home raw = .ok v ∧ (∀ check ∈ d.check?, check.run v.raw = .ok ()) ∧
      t = s.set scope.id d.name v.raw ∧ r = t.effective d scope := by
  unfold assign
  simp only [bind_eq_ok_iff, checkTier_eq_ok_iff, canonical_eq_ok_iff, pure_eq_ok_iff,
    Prod.mk.injEq]
  constructor
  · rintro ⟨d, hd, -, htier, _, ⟨v, hparse, hcheck, rfl⟩, rfl, rfl⟩
    exact ⟨d, v, hd, htier, hparse, hcheck, rfl, rfl⟩
  · rintro ⟨d, v, hd, htier, hparse, hcheck, rfl, rfl⟩
    exact ⟨d, hd, (), htier, _, ⟨v, hparse, hcheck, rfl⟩, rfl, rfl⟩

/-- The setting of a name holds any text that a check accepts. -/
def HoldsChecked (name : String) (tiers : Tiers) (check : Check) : Prop :=
  ∃ d ∈ visible, d.name = name ∧ d.tiers = tiers ∧ d.kind = .text ∧ d.check? = some check

instance (name : String) (tiers : Tiers) (check : Check) :
    Decidable (HoldsChecked name tiers check) :=
  inferInstanceAs (Decidable (∃ d ∈ visible, _))

namespace HoldsChecked
variable {tiers : Tiers} {check : Check}

/-- A text is stored as it stands if the check of its setting accepts it, and is refused if not. -/
theorem assign_eq (h : HoldsChecked name tiers check) (htier : tiers.allows scope = true)
    (s : Store) (raw : String) :
    ∃ r, s.assign scope name raw =
      match check.run raw with
      | .ok _ => .ok (s.set scope.id name raw, r)
      | .error e => .error (.refused e) := by
  obtain ⟨d, hd, rfl, rfl, hkind, hcheck⟩ := h
  have htext : s.canonical d raw = match check.run raw with
      | .ok _ => .ok raw
      | .error e => .error (.refused e) := by
    unfold canonical
    rw [hkind, hcheck]
    rfl
  have hallowed : checkTier d scope .assign = .ok () := checkTier_eq_ok_iff.2 htier
  refine ⟨(s.set scope.id d.name raw).effective d scope, ?_⟩
  unfold assign
  rw [definition_eq_ok_iff.2 ⟨rfl, hd⟩]
  simp only [bind, Except.bind, hallowed, htext]
  cases check.run raw <;> rfl

theorem exists_assign_iff (h : HoldsChecked name tiers check) (htier : tiers.allows scope = true) :
    (∃ t r, s.assign scope name raw = .ok (t, r)) ↔ check.run raw = .ok () := by
  obtain ⟨r, hassign⟩ := h.assign_eq htier s raw
  rw [hassign]
  cases check.run raw with
  | ok => simp
  | error e => simp

theorem eq_set_of_assign (h : HoldsChecked name tiers check) (htier : tiers.allows scope = true)
    (hok : s.assign scope name raw = .ok (t, r)) : t = s.set scope.id name raw := by
  have hrun := (h.exists_assign_iff htier).1 ⟨t, r, hok⟩
  obtain ⟨r', hassign⟩ := h.assign_eq htier s raw
  rw [hassign, hrun] at hok
  exact (Prod.mk.inj (Except.ok.inj hok)).1.symm

theorem assign_eq_error {problem : Check.Error} (h : HoldsChecked name tiers check)
    (htier : tiers.allows scope = true) (hrun : check.run raw = .error problem) :
    s.assign scope name raw = .error (.refused problem) := by
  obtain ⟨r', hassign⟩ := h.assign_eq htier s raw
  rw [hassign, hrun]

end HoldsChecked

theorem clear_eq_ok_iff : s.clear scope name = .ok (t, r) ↔
    ∃ d, definition name = .ok d ∧ d.tiers.allows scope = true ∧
      t = s.erase scope.id d.name ∧ r = t.effective d scope := by
  unfold clear
  simp only [bind_eq_ok_iff, checkTier_eq_ok_iff, pure_eq_ok_iff, Prod.mk.injEq]
  constructor
  · rintro ⟨d, hd, -, htier, rfl, rfl⟩
    exact ⟨d, hd, htier, rfl, rfl⟩
  · rintro ⟨d, hd, htier, rfl, rfl⟩
    exact ⟨d, hd, (), htier, rfl, rfl⟩

/-- To assign a setting leaves the notes on hubs as they are. -/
theorem get?_note_of_assign {note : String} (hn : note ∈ [hubName, hubAddress, hubKeyprint])
    (h : s.assign scope name raw = .ok (t, r)) : t.get? hub note = s.get? hub note := by
  obtain ⟨d, v, hd, -, -, -, rfl, -⟩ := assign_eq_ok_iff.1 h
  have hne : d.name ≠ note := visible_name_ne (definition_eq_ok_iff.1 hd).2 hn
  rw [get?_set, if_neg fun e => hne e.2]

theorem get?_note_of_clear {note : String} (hn : note ∈ [hubName, hubAddress, hubKeyprint])
    (h : s.clear scope name = .ok (t, r)) : t.get? hub note = s.get? hub note := by
  obtain ⟨d, hd, -, rfl, -⟩ := clear_eq_ok_iff.1 h
  have hne : d.name ≠ note := visible_name_ne (definition_eq_ok_iff.1 hd).2 hn
  rw [get?_erase, if_neg fun e => hne e.2]

theorem resolve_eq_ok_iff : s.resolve scope name = .ok r ↔
    ∃ d ∈ visible, d.name = name ∧ d.tiers.allows scope = true ∧ s.effective d scope = r := by
  unfold resolve
  simp only [bind_eq_ok_iff, definition_eq_ok_iff, checkTier_eq_ok_iff, pure_eq_ok_iff]
  constructor
  · rintro ⟨d, ⟨hname, hd⟩, -, htier, hr⟩
    exact ⟨d, hd, hname, htier, hr⟩
  · rintro ⟨d, hd, hname, htier, hr⟩
    exact ⟨d, ⟨hname, hd⟩, (), htier, hr⟩

theorem resolve_eq_error_iff : s.resolve scope name = .error e ↔
    (e = .unknown name ∧ ∀ d ∈ visible, d.name ≠ name) ∨
      ∃ d ∈ visible, d.name = name ∧ checkTier d scope .read = .error e := by
  unfold resolve
  simp only [bind_eq_error_iff, definition_eq_ok_iff, definition_eq_error_iff, pure_ne_error,
    and_false, exists_false, or_false]
  constructor
  · rintro (h | ⟨d, ⟨hname, hd⟩, hcheck⟩)
    · exact .inl h
    · exact .inr ⟨d, hd, hname, hcheck⟩
  · rintro (h | ⟨d, hd, hname, hcheck⟩)
    · exact .inl h
    · exact .inr ⟨d, ⟨hname, hd⟩, hcheck⟩

/-! ## Hubs by name -/

theorem findHub?_eq_some (h : s.findHub? name = some hub) :
    hub ≠ 0 ∧ s.get? hub hubName = some name := by
  unfold findHub? at h
  obtain ⟨⟨_, value⟩, hfind, rfl⟩ := Option.map_eq_some_iff.1 h
  have hvalue : value = name := by simpa using List.find?_some hfind
  obtain ⟨e, he, heq⟩ := List.mem_map.1 (List.mem_of_find?_eq_some hfind)
  obtain ⟨hmem, hsel⟩ := List.mem_filter.1 he
  simp only [Bool.and_eq_true, bne_iff_ne, beq_iff_eq] at hsel
  obtain ⟨rfl, rfl⟩ := Prod.mk.inj heq
  refine ⟨hsel.1, ?_⟩
  rw [← hsel.2, mem_entries_iff.1 hmem, hvalue]

/-- The ids after 0 are not 0. -/
theorem ofNat_succ_ne_zero {n : Nat} (h : n < maxHubId) : UInt64.ofNat (n + 1) ≠ 0 := by
  intro e
  have hn : n < 2 ^ 64 - 1 := h
  have := congrArg UInt64.toNat e
  rw [UInt64.toNat_ofNat', Nat.mod_eq_of_lt (by omega)] at this
  exact absurd this (by simp)

theorem unusedHubId?_ne_zero (h : s.unusedHubId? = some hub) : hub ≠ 0 := by
  unfold unusedHubId? at h
  dsimp only at h
  split at h
  · next hlast =>
    rw [Option.some.injEq] at h
    exact h ▸ ofNat_succ_ne_zero hlast
  · unfold smallestFree? at h
    obtain ⟨i, hi, rfl⟩ := List.mem_map.1 (List.mem_of_find?_eq_some h)
    exact ofNat_succ_ne_zero (Nat.lt_of_lt_of_le (List.mem_range.1 hi) (Nat.min_le_right _ _))

/-- To open a hub by its name stores nothing but that name. -/
theorem hubNamed?_eq_some (h : s.hubNamed? name = some (t, hub)) :
    hub ≠ 0 ∧ (t = s ∨ t = s.set hub hubName name) := by
  unfold hubNamed? at h
  split at h
  · next k hfind =>
    obtain ⟨rfl, rfl⟩ := Prod.mk.inj (Option.some.inj h)
    exact ⟨(findHub?_eq_some hfind).1, .inl rfl⟩
  · obtain ⟨k, hk, heq⟩ := Option.map_eq_some_iff.1 h
    obtain ⟨rfl, rfl⟩ := Prod.mk.inj heq
    exact ⟨unusedHubId?_ne_zero hk, .inr rfl⟩

end Store
end HubConsole
