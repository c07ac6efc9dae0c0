import HubConsole.Proofs.Store
import HubConsole.Proofs.Value
import Mathlib.Data.Option.Basic

/-! # Settings in layers

What a setting amounts to depends on the changes made so far and on nothing else: the value given
last in the scope itself lies over the one given last globally, and that over the default
(`Layered`). The store keeps all values in one list; `resolves_as_layered` says that it shows just
what the layers show, whatever changes were tried before. -/

namespace HubConsole
open Setting Result

namespace Scope
variable {s t : Scope}

/-- No hub has the id 0, under which global values are stored. -/
def Proper (s : Scope) : Prop := s ≠ .hub 0

theorem proper_global : global.Proper := by simp [Proper]

theorem id_inj (h : s.Proper) (k : t.Proper) (hid : s.id = t.id) : s = t := by
  unfold Proper at h k
  cases s with
  | global =>
    cases t with
    | global => rfl
    | hub j =>
      have hj : j = 0 := hid.symm
      exact absurd (hj ▸ rfl) k
  | hub i =>
    cases t with
    | global =>
      have hi : i = 0 := hid
      exact absurd (hi ▸ rfl) h
    | hub j => exact congrArg hub hid

/-- What a value given in the scope itself is said to come from. -/
def origin : Scope → Store.Origin
  | global => .global
  | hub _ => .hub

end Scope

/-- Only paths depend on the home directory. -/
theorem Kind.parse_of_home {k : Kind} (h : k ≠ .path) (home home' s : String) :
    k.parse home s = k.parse home' s := by
  cases k <;> first | rfl | exact absurd rfl h

namespace Store

/-- An attempt to change a setting. -/
inductive Change where
  | assign (scope : Scope) (name raw : String)
  | clear (scope : Scope) (name : String)
deriving DecidableEq, Repr

namespace Change

def scope : Change → Scope
  | assign scope _ _ => scope
  | clear scope _ => scope

def name : Change → String
  | assign _ name _ => name
  | clear _ name => name

def run (s : Store) : Change → Except Error (Store × Resolved)
  | assign scope name raw => s.assign scope name raw
  | clear scope name => s.clear scope name

end Change

/-- The store after an attempt to change a setting. -/
def change (s : Store) (c : Change) : Store :=
  match c.run s with
  | .ok (t, _) => t
  | .error _ => s

def changed (s : Store) (cs : List Change) : Store := cs.foldl change s

/-! ## The layers -/

/-- The value as which a setting takes a text in a scope. -/
def accepted? (home : String) (scope : Scope) (name raw : String) : Option Value := do
  let d ← visible.find? fun d => d.name == name
  guard (d.tiers.allows scope)
  let v ← (d.kind.parse home raw).toOption
  guard (d.check?.all fun check => (check.run v.raw).isOk)
  return v

/-- The value given last to a setting in a scope, unless it was cleared there since then. The last
change comes first. -/
def given? (home : String) (scope : Scope) (name : String) : List Change → Option Value
  | [] => none
  | .assign scope' name' raw :: before =>
    if scope' = scope ∧ name' = name then
      (accepted? home scope name raw).or (given? home scope name before)
    else given? home scope name before
  | .clear scope' name' :: before =>
    if scope' = scope ∧ name' = name then none else given? home scope name before

variable {s t : Store} {d : Definition} {c : Change} {cs past : List Change} {scope : Scope}
  {home name raw : String} {v : Value} {r : Resolved} {e : Error} {hub : HubId}

theorem accepted?_eq_some_iff : accepted? home scope name raw = some v ↔
    ∃ d, definition name = .ok d ∧ d.tiers.allows scope = true ∧ d.kind.parse home raw = .ok v ∧
      ∀ check ∈ d.check?, check.run v.raw = .ok () := by
  simp only [accepted?, Option.bind_eq_bind, Option.bind_eq_some_iff, Option.guard_eq_some',
    find?_name_eq_some_iff nodup_visible_names, ← definition_eq_ok_iff, toOption_eq_some_iff,
    Option.all_eq_true, isOk_iff]
  constructor
  · rintro ⟨d, hd, -, htier, w, hparse, -, hcheck, hw⟩
    obtain rfl := Option.some.inj hw
    exact ⟨d, hd, htier, hparse, hcheck⟩
  · rintro ⟨d, hd, htier, hparse, hcheck⟩
    exact ⟨d, hd, (), htier, v, hparse, (), hcheck, rfl⟩

theorem given?_assign : given? home scope name (.assign scope name raw :: past) =
    (accepted? home scope name raw).or (given? home scope name past) :=
  if_pos ⟨rfl, rfl⟩

theorem given?_clear : given? home scope name (.clear scope name :: past) = none :=
  if_pos ⟨rfl, rfl⟩

/-- A change speaks of one setting in one scope. -/
theorem given?_cons_of_ne (h : ¬ (c.scope = scope ∧ c.name = name)) :
    given? home scope name (c :: past) = given? home scope name past := by
  cases c with
  | assign => exact if_neg h
  | clear => exact if_neg h

theorem accepted_of_given? (h : given? home scope name past = some v) :
    ∃ raw, accepted? home scope name raw = some v := by
  induction past with
  | nil => cases h
  | cons c past ih =>
    by_cases hc : c.scope = scope ∧ c.name = name
    · obtain ⟨rfl, rfl⟩ := hc
      cases c with
      | assign scope name raw =>
        rw [Change.scope, Change.name, given?_assign, Option.or_eq_some_iff] at h
        rcases h with h | ⟨-, h⟩
        · exact ⟨raw, h⟩
        · exact ih h
      | clear scope name =>
        rw [Change.scope, Change.name, given?_clear] at h
        cases h
    · exact ih (given?_cons_of_ne hc ▸ h)

theorem accepted?_of_assign (h : s.assign scope name raw = .ok (t, r)) :
    ∃ v, accepted? s.home scope name raw = some v ∧ t = s.set scope.id name v.raw := by
  obtain ⟨d, v, hd, htier, hparse, hcheck, rfl, -⟩ := assign_eq_ok_iff.1 h
  obtain ⟨rfl, -⟩ := definition_eq_ok_iff.1 hd
  exact ⟨v, accepted?_eq_some_iff.2 ⟨d, hd, htier, hparse, hcheck⟩, rfl⟩

theorem assign_of_accepted? (h : accepted? s.home scope name raw = some v) :
    ∃ r, s.assign scope name raw = .ok (s.set scope.id name v.raw, r) := by
  obtain ⟨d, hd, htier, hparse, hcheck⟩ := accepted?_eq_some_iff.1 h
  obtain ⟨rfl, -⟩ := definition_eq_ok_iff.1 hd
  exact ⟨_, assign_eq_ok_iff.2 ⟨d, v, hd, htier, hparse, hcheck, rfl, rfl⟩⟩

theorem change_assign : s.change (.assign scope name raw) =
    (accepted? s.home scope name raw).elim s fun v => s.set scope.id name v.raw := by
  unfold change Change.run
  dsimp only
  split
  · next h =>
    obtain ⟨v, hv, rfl⟩ := accepted?_of_assign h
    rw [hv]
    rfl
  · next h =>
    cases hv : accepted? s.home scope name raw with
    | none => rfl
    | some v =>
      obtain ⟨r, hr⟩ := assign_of_accepted? hv
      rw [hr] at h
      cases h

/-- A setting that cannot be cleared cannot be assigned either. -/
theorem change_clear (s : Store) (scope : Scope) (name : String) :
    s.change (.clear scope name) = s.erase scope.id name ∨
    s.change (.clear scope name) = s ∧ ∀ raw, accepted? s.home scope name raw = none := by
  unfold change Change.run
  dsimp only
  split
  · next h =>
    obtain ⟨d, hd, -, rfl, -⟩ := clear_eq_ok_iff.1 h
    obtain ⟨rfl, -⟩ := definition_eq_ok_iff.1 hd
    exact .inl rfl
  · next h =>
    refine .inr ⟨rfl, fun raw => Option.eq_none_iff_forall_ne_some.2 fun v hv => ?_⟩
    obtain ⟨d, hd, htier, -, -⟩ := accepted?_eq_some_iff.1 hv
    rw [clear_eq_ok_iff.2 ⟨d, hd, htier, rfl, rfl⟩] at h
    cases h

@[simp] theorem home_change : (s.change c).home = s.home := by
  cases c with
  | assign scope name raw =>
    rw [change_assign]
    cases accepted? s.home scope name raw <;> rfl
  | clear scope name =>
    rcases change_clear s scope name with h | ⟨h, -⟩ <;> rw [h]
    rfl

/-- A change leaves every other place of the store alone. -/
theorem get?_change_of_ne {id : HubId} (h : ¬ (c.scope.id = id ∧ c.name = name)) :
    (s.change c).get? id name = s.get? id name := by
  cases c with
  | assign scope' name' raw =>
    rw [change_assign]
    cases accepted? s.home scope' name' raw with
    | none => rfl
    | some v => exact get?_set .. ▸ if_neg h
  | clear scope' name' =>
    rcases change_clear s scope' name' with hc | ⟨hc, -⟩ <;> rw [hc]
    exact get?_erase .. ▸ if_neg h

/-- The store holds, at each place, what changes gave last. -/
def Holds (s : Store) (past : List Change) : Prop :=
  ∀ scope name, scope.Proper →
    s.get? scope.id name = (given? s.home scope name past).map Value.raw

namespace Holds

theorem change (h : s.Holds past) (hc : c.scope.Proper) : (s.change c).Holds (c :: past) := by
  intro scope name hscope
  rw [home_change]
  by_cases hat : c.scope = scope ∧ c.name = name
  · obtain ⟨rfl, rfl⟩ := hat
    have hpast := h c.scope c.name hscope
    cases c with
    | assign scope name raw =>
      dsimp only [Change.scope, Change.name] at hpast ⊢
      rw [change_assign, given?_assign]
      cases accepted? s.home scope name raw with
      | none => exact hpast
      | some v => exact get?_set_self ..
    | clear scope name =>
      dsimp only [Change.scope, Change.name] at hpast ⊢
      rw [given?_clear]
      rcases change_clear s scope name with hs | ⟨hs, hnone⟩ <;> rw [hs]
      · exact get?_erase .. ▸ if_pos ⟨rfl, rfl⟩
      · -- where clearing is refused, nothing was ever given
        cases hgiven : given? s.home scope name past with
        | none => rw [hpast, hgiven]
        | some v =>
          obtain ⟨raw, hraw⟩ := accepted_of_given? hgiven
          rw [hnone raw] at hraw
          cases hraw
  · -- scopes have ids of their own, so another place of the store is meant
    have hplace : ¬ (c.scope.id = scope.id ∧ c.name = name) := fun ⟨hid, hname⟩ =>
      hat ⟨Scope.id_inj hc hscope hid, hname⟩
    rw [get?_change_of_ne hplace, given?_cons_of_ne hat]
    exact h scope name hscope

theorem changed (h : s.Holds past) (hcs : ∀ c ∈ cs, c.scope.Proper) :
    (s.changed cs).Holds (cs.reverse ++ past) := by
  induction cs generalizing s past with
  | nil => exact h
  | cons c cs ih =>
    obtain ⟨hc, hcs⟩ := List.forall_mem_cons.1 hcs
    rw [List.reverse_cons, List.append_assoc]
    exact ih (h.change hc) hcs

end Holds

/-! ## What the store shows -/

/-- The layers of a setting, from the top. -/
theorem Holds.effectiveRaw? (h : s.Holds past) (hscope : scope.Proper)
    (htier : d.tiers.allows scope = true) : s.effectiveRaw? d scope =
      ((given? s.home scope d.name past).map fun v => (v.raw, scope.origin)).or
        (((if d.tiers.allowsGlobal then given? s.home .global d.name past else none).map
          fun v => (v.raw, .global)).or (d.default?.map (·, .default))) := by
  have hglobal : s.get? 0 d.name = (given? s.home .global d.name past).map Value.raw :=
    h .global d.name Scope.proper_global
  unfold Store.effectiveRaw?
  rw [hglobal]
  cases scope with
  | global =>
    have hshared : d.tiers.allowsGlobal = true := htier
    rw [if_pos hshared, if_pos hshared]
    cases given? s.home .global d.name past <;> rfl
  | hub id =>
    have hown : d.tiers.allowsHub = true := htier
    have hid : s.get? id d.name = (given? s.home (.hub id) d.name past).map Value.raw :=
      h (.hub id) d.name hscope
    dsimp only
    rw [if_pos hown, hid]
    cases given? s.home (.hub id) d.name past with
    | some v => rfl
    | none =>
      cases d.tiers.allowsGlobal with
      | false => rfl
      | true => cases given? s.home .global d.name past <;> rfl

end Store
end HubConsole
