import HubConsole.Proofs.AddressText
import HubConsole.Proofs.Store

/-! # What is noted of a hub

`Store.Noted`: the two notes on a hub's address amount to one address, which may be pinned.
`noteAddress` keeps that: the pin of the address before stays exactly with the same endpoint
(`Noted.noteAddress`), and the notes read back as the address (`Noted.notedAddress?`). -/

namespace HubConsole

/-- The address with the keyprint of the one before it, if that has the same endpoint and the address
has no keyprint itself. -/
def Address.pinnedAfter (a : Address) (before : Option Address) : Address :=
  { a with keyprint := a.keyprint.or ((before.filter (·.endpoint = a.endpoint)).bind (·.keyprint)) }

theorem Address.WellFormed.pinnedAfter {a : Address} {before : Option Address} (h : a.WellFormed)
    (hb : ∀ b ∈ before, b.WellFormed) : (a.pinnedAfter before).WellFormed := by
  refine ⟨h.host_ne, h.host_chars, h.port_pos, h.port_le, fun k hk => ?_⟩
  simp only [Address.pinnedAfter, Option.mem_def, Option.or_eq_some_iff, Option.bind_eq_some_iff,
    Option.filter_eq_some_iff, decide_eq_true_eq] at hk
  rcases hk with hk | ⟨-, b, ⟨hb', hend⟩, hk⟩
  · exact h.tls k hk
  · have : b.protocol = a.protocol := congrArg Prod.fst hend
    exact this ▸ (hb b hb').tls k hk

namespace Store
open Setting
variable {s t : Store} {hub : HubId} {a? : Option Address} {a : Address}

theorem hubAddress_ne_hubKeyprint : hubAddress ≠ hubKeyprint := by decide

/-- The notes on a hub amount to this address. -/
structure Noted (s : Store) (hub : HubId) (a? : Option Address) : Prop where
  address : s.get? hub hubAddress = a?.map Address.canonical
  keyprint : s.get? hub hubKeyprint = (a?.bind Address.keyprint).map Digest.text
  wellFormed : ∀ a ∈ a?, a.WellFormed

theorem noted_empty (home : String) (hub : HubId) : (empty home).Noted hub none :=
  ⟨rfl, rfl, by simp⟩

namespace Noted

theorem congr (h : s.Noted hub a?) (ha : t.get? hub hubAddress = s.get? hub hubAddress)
    (hk : t.get? hub hubKeyprint = s.get? hub hubKeyprint) : t.Noted hub a? :=
  ⟨ha.trans h.address, hk.trans h.keyprint, h.wellFormed⟩

/-- The notes read back as the address that they amount to. -/
theorem notedAddress? (h : s.Noted hub a?) : s.notedAddress? hub = a? := by
  unfold Store.notedAddress?
  rw [h.address, h.keyprint]
  cases a? with
  | none => rfl
  | some a =>
    have hw := h.wellFormed a rfl
    have hparse : (Address.parse a.canonical).toOption = some { a with keyprint := none } := by
      rw [hw.parse_canonical]; rfl
    simp only [Option.map_some, Option.bind_some, bind, hparse]
    cases hk : a.keyprint with
    | none => cases a; simp_all
    | some k =>
      have htls := hw.tls k hk
      cases a
      simp_all

theorem noteAddress (h : s.Noted hub a?) (ha : a.WellFormed) :
    (s.noteAddress hub a).Noted hub (some (a.pinnedAfter a?)) := by
  have hne := hubAddress_ne_hubKeyprint
  have hcan : (a.pinnedAfter a?).canonical = a.canonical := rfl
  cases hk : a.keyprint with
  | some k =>
    have hkey : (a.pinnedAfter a?).keyprint = some k := by simp [Address.pinnedAfter, hk]
    refine ⟨?_, ?_, fun b hb => Option.some.inj hb ▸ ha.pinnedAfter h.wellFormed⟩
    · simp [Store.noteAddress, hk, get?_set, hne.symm, hcan]
    · simp [Store.noteAddress, hk, hkey]
  | none =>
    refine ⟨?_, ?_, fun b hb => Option.some.inj hb ▸ ha.pinnedAfter h.wellFormed⟩
    · simp [Store.noteAddress, hk, hcan]
    · simp only [Store.noteAddress, hk, get?_set, hne, and_false, if_false]
      cases a? with
      | none =>
        have hnone : s.get? hub hubAddress ≠ some a.canonical := by simp [h.address]
        rw [if_neg hnone, get?_erase, if_pos ⟨rfl, rfl⟩]
        simp [Address.pinnedAfter, hk]
      | some b =>
        have hw := h.wellFormed b rfl
        have hsame : s.get? hub hubAddress = some a.canonical ↔ b.endpoint = a.endpoint := by
          rw [h.address, Option.map_some, Option.some.injEq, hw.canonical_inj ha]
        by_cases hend : b.endpoint = a.endpoint
        · rw [if_pos (hsame.2 hend), h.keyprint]
          simp [Address.pinnedAfter, hk, hend, Option.filter_some]
        · rw [if_neg (mt hsame.1 hend), get?_erase, if_pos ⟨rfl, rfl⟩]
          simp [Address.pinnedAfter, hk, hend, Option.filter_some]

end Noted

/-- Noting an address changes nothing but the two notes on that hub's address. -/
theorem get?_noteAddress {hub' : HubId} {name : String}
    (h : hub' ≠ hub ∨ (name ≠ hubAddress ∧ name ≠ hubKeyprint)) :
    (s.noteAddress hub a).get? hub' name = s.get? hub' name := by
  have haddr : ¬ (hub = hub' ∧ hubAddress = name) := fun e =>
    h.elim (· e.1.symm) fun h => h.1 e.2.symm
  have hkey : ¬ (hub = hub' ∧ hubKeyprint = name) := fun e =>
    h.elim (· e.1.symm) fun h => h.2 e.2.symm
  unfold Store.noteAddress
  split
  · rw [get?_set, if_neg hkey, get?_set, if_neg haddr]
  · rw [get?_set, if_neg haddr]
    split
    · rfl
    · rw [get?_erase, if_neg hkey]

@[simp] theorem get?_noteAddress_hubAddress :
    (s.noteAddress hub a).get? hub hubAddress = some a.canonical := by
  unfold Store.noteAddress
  split
  · rw [get?_set, if_neg fun e => hubAddress_ne_hubKeyprint e.2.symm, get?_set_self]
  · exact get?_set_self ..

/-- What was noted just now can be looked up, whatever else is stored. -/
theorem notedAddress?_noteAddress (ha : a.WellFormed) :
    ∃ b, (s.noteAddress hub a).notedAddress? hub = some b := by
  unfold Store.notedAddress?
  rw [get?_noteAddress_hubAddress]
  simp only [bind, Option.bind_some, ha.parse_canonical, Except.toOption]
  split
  · exact ⟨_, rfl⟩
  · exact ⟨_, rfl⟩

@[simp] theorem home_noteAddress : (s.noteAddress hub a).home = s.home := by
  unfold Store.noteAddress
  split
  · rfl
  · dsimp only
    split <;> rfl

/-- To note an address once more changes nothing. -/
theorem noteAddress_noteAddress : (s.noteAddress hub a).noteAddress hub a = s.noteAddress hub a := by
  have haddr : (s.noteAddress hub a).get? hub hubAddress = some a.canonical :=
    get?_noteAddress_hubAddress
  cases hk : a.keyprint with
  | none =>
    generalize s.noteAddress hub a = t at haddr
    simp only [Store.noteAddress, hk]
    rw [if_pos haddr, set_of_get? haddr]
  | some k =>
    have hkey : (s.noteAddress hub a).get? hub hubKeyprint = some k.text := by
      simp [Store.noteAddress, hk]
    generalize s.noteAddress hub a = t at haddr hkey
    simp only [Store.noteAddress, hk]
    rw [set_of_get? haddr, set_of_get? hkey]

/-- What may be given of an address changes no more than the notes on it. -/
theorem get?_noteGiven {hub' : HubId} {name : String}
    (h : hub' ≠ hub ∨ (name ≠ hubAddress ∧ name ≠ hubKeyprint)) :
    (s.noteGiven hub a?).get? hub' name = s.get? hub' name := by
  cases a? with
  | none => rfl
  | some a => exact get?_noteAddress h

@[simp] theorem home_noteGiven : (s.noteGiven hub a?).home = s.home := by
  cases a? with
  | none => rfl
  | some a => exact home_noteAddress

theorem noteGiven_noteGiven : (s.noteGiven hub a?).noteGiven hub a? = s.noteGiven hub a? := by
  cases a? with
  | none => rfl
  | some a => exact noteAddress_noteAddress

/-! ## What else is stored -/

namespace Noted
variable {k : HubId} {scope : Scope} {name raw : String} {r : Resolved}

/-- The notes on a hub's address are none of the values that are set. -/
theorem set (h : s.Noted hub a?) {value : String} (ha : name ≠ hubAddress)
    (hk : name ≠ hubKeyprint) : (s.set k name value).Noted hub a? :=
  h.congr (by rw [get?_set, if_neg fun e => ha e.2]) (by rw [get?_set, if_neg fun e => hk e.2])

theorem erase (h : s.Noted hub a?) (ha : name ≠ hubAddress) (hk : name ≠ hubKeyprint) :
    (s.erase k name).Noted hub a? :=
  h.congr (by rw [get?_erase, if_neg fun e => ha e.2]) (by rw [get?_erase, if_neg fun e => hk e.2])

theorem assign (h : s.Noted hub a?) (hs : s.assign scope name raw = .ok (t, r)) :
    t.Noted hub a? :=
  h.congr (get?_note_of_assign (by simp) hs) (get?_note_of_assign (by simp) hs)

theorem clear (h : s.Noted hub a?) (hs : s.clear scope name = .ok (t, r)) :
    t.Noted hub a? :=
  h.congr (get?_note_of_clear (by simp) hs) (get?_note_of_clear (by simp) hs)

theorem hubNamed? (h : s.Noted hub a?) (hs : s.hubNamed? name = some (t, k)) :
    t.Noted hub a? := by
  obtain ⟨-, rfl | rfl⟩ := hubNamed?_eq_some hs
  · exact h
  · exact h.set (by decide) (by decide)

/-- Another hub's address is noted. -/
theorem noteAddress_of_ne {a : Address} (h : s.Noted hub a?) (hne : hub ≠ k) :
    (s.noteAddress k a).Noted hub a? :=
  h.congr (get?_noteAddress (.inl hne)) (get?_noteAddress (.inl hne))

end Noted
end Store
end HubConsole
