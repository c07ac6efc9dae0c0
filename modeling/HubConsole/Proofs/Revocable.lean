import HubConsole.Proofs.GrantTable

/-!
# Grants that can be revoked

A grant is made for a user on a hub, but it is revoked by a text that names no hub. So a text may fail
to single it out: by the name when another grant has it, by an id when the same user has a grant on
another hub, and by the beginnings of an id when they are names. `exists_revoke_iff`: a grant can be
revoked as the table stands iff one of its names and beginnings is its own. Grants of one name and one
id on two hubs have none.
-/

namespace HubConsole
open Text

/-! ### Digits of an id -/

namespace Text

theorem lowerAscii_hexChar (n : Nat) :
    isHexDigit (hexChar n) = true ∧ lowerAscii (hexChar n) = hexChar n := by
  have hall : ∀ m < 16, isHexDigit (Nat.digitChar m) = true ∧
      lowerAscii (Nat.digitChar m) = Nat.digitChar m := by
    decide
  exact hall (n % 16) (Nat.mod_lt _ (by decide))

theorem lowerAscii_of_mem_hexDigits {width n : Nat} {c : Char} (h : c ∈ hexDigits width n) :
    isHexDigit c = true ∧ lowerAscii c = c := by
  induction width generalizing n with
  | zero => cases h
  | succ width ih =>
    rcases List.mem_append.1 h with h | h
    · exact ih h
    · rw [List.mem_singleton.1 h]
      exact lowerAscii_hexChar n

theorem lowerAscii_lowerAscii (c : Char) : lowerAscii (lowerAscii c) = lowerAscii c := by
  refine char_cases (P := fun c => lowerAscii (lowerAscii c) = lowerAscii c) ?_ (fun c hc => ?_) c
  · decide
  · rw [lowerAscii_of_ge hc, lowerAscii_of_ge hc]

end Text

namespace Grants
variable {gs : Grants} {g h : Grant} {q lead : String}

/-- The only element of its kind is all that a filter leaves. -/
theorem filter_eq_singleton_iff {p : Grant → Bool} {gs : List Grant} (hnd : gs.Nodup) (hg : g ∈ gs) :
    gs.filter p = [g] ↔ p g = true ∧ ∀ h ∈ gs, h ≠ g → p h = false := by
  constructor
  · intro hfilter
    have hmem : ∀ h, h ∈ gs ∧ p h = true ↔ h = g := fun h => by
      rw [← List.mem_filter, hfilter, List.mem_singleton]
    exact ⟨((hmem g).2 rfl).2, fun h hh hne => Bool.eq_false_iff.2 fun hp => hne ((hmem h).1 ⟨hh, hp⟩)⟩
  · rintro ⟨hp, hothers⟩
    obtain ⟨before, rest, rfl⟩ := List.append_of_mem hg
    have hne : ∀ h ∈ before ++ rest, h ≠ g := by
      rintro h hh rfl
      exact (List.nodup_cons.1 (List.nodup_middle.1 hnd)).1 hh
    have hnone : ∀ gs : List Grant, (∀ h ∈ gs, h ∈ before ++ rest) → gs.filter p = [] := by
      intro gs hgs
      refine List.filter_eq_nil_iff.2 fun h hh => ?_
      have hmem := (List.Sublist.append_left (List.sublist_cons_self g rest) before).subset (hgs h hh)
      rw [hothers h hmem (hne h (hgs h hh))]
      exact Bool.false_ne_true
    rw [List.filter_append, List.filter_cons_of_pos hp,
      hnone before fun h hh => List.mem_append_left _ hh,
      hnone rest fun h hh => List.mem_append_right _ hh]
    rfl

/-- Revoking takes out the grant iff it is the only one that matches. -/
theorem exists_revoke_iff_matching (hnd : gs.entries.Nodup) :
    (∃ rest, gs.revoke q = .ok (rest, g) ∧ rest.entries = gs.entries.erase g) ↔
      gs.matching q = [g] := by
  constructor
  · rintro ⟨rest, hrevoke, -⟩
    obtain ⟨i, hfind, hg, -⟩ := revoke_eq_ok_iff.1 hrevoke
    obtain ⟨e, hmatch, he⟩ := matching_of_find hfind
    rw [hmatch, Option.some.inj (he.symm.trans hg)]
  · intro hmatch
    rcases answers_matching (hmatch ▸ List.cons_ne_nil g []) with ⟨e, i, hfound, he, hfind⟩ | ⟨hlen, -⟩
    · obtain rfl : g = e := (List.cons.inj (hmatch.symm.trans hfound)).1
      obtain ⟨hi, hget⟩ := List.getElem?_eq_some_iff.1 he
      refine ⟨_, revoke_eq_ok_iff.2 ⟨i, hfind, he, rfl⟩, ?_⟩
      rw [← hget]
      exact (hnd.erase_getElem i hi).symm
    · rw [hmatch, List.length_singleton] at hlen
      omega

/-! ### What can be said of a grant alone -/

/-- No other grant has the name, in any letter case. -/
def OwnName (gs : Grants) (g : Grant) : Prop :=
  ∀ h ∈ gs.entries, h ≠ g → sameIgnoringCase h.name g.name = false

/-- The text begins the id of this grant only, and is the name of none. -/
structure OwnStart (gs : Grants) (g : Grant) (lead : String) : Prop where
  ne_empty : lead ≠ ""
  start : startsWith (idText g.uid) lead = true
  others : ∀ h ∈ gs.entries, h ≠ g → startsWith (idText h.uid) lead = false
  no_name : ∀ h ∈ gs.entries, sameIgnoringCase h.name lead = false

theorem sameIgnoringCase_lowered (name q : String) :
    sameIgnoringCase name (lowerAsciiAll q) = sameIgnoringCase name q := by
  rw [sameIgnoringCase, sameIgnoringCase, toList_lowerAsciiAll, List.map_map]
  congr 2
  funext c
  exact lowerAscii_lowerAscii c

/-- What begins an id is made of digits in lower case. -/
theorem OwnStart.digits (h : gs.OwnStart g lead) :
    (!lead.toList.isEmpty && lead.toList.all isHexDigit) = true ∧ lowerAsciiAll lead = lead := by
  have hid : lead.toList <+: hexDigits 16 g.uid.toNat := by
    have hstart := List.isPrefixOf_iff_prefix.1 h.start
    rwa [idText, String.toList_ofList] at hstart
  have hdigits : ∀ c ∈ lead.toList, isHexDigit c = true ∧ lowerAscii c = c := fun c hc =>
    lowerAscii_of_mem_hexDigits (hid.subset hc)
  have hne : lead.toList ≠ [] := mt String.toList_eq_nil_iff.1 h.ne_empty
  refine ⟨?_, String.toList_injective ?_⟩
  · rw [Bool.and_eq_true, Bool.not_eq_true', List.isEmpty_eq_false_iff, List.all_eq_true]
    exact ⟨hne, fun c hc => (hdigits c hc).1⟩
  · rw [toList_lowerAsciiAll, List.map_congr_left fun c hc => (hdigits c hc).2, List.map_id']

theorem OwnName.matching (h : gs.OwnName g) (hnd : gs.entries.Nodup) (hg : g ∈ gs.entries) :
    gs.matching g.name = [g] := by
  have hnamed : gs.named g.name = [g] :=
    (filter_eq_singleton_iff hnd hg).2 ⟨sameIgnoringCase_iff.2 rfl, h⟩
  rw [Grants.matching, hnamed, if_neg (List.cons_ne_nil _ _)]

theorem OwnStart.matching (h : gs.OwnStart g lead) (hnd : gs.entries.Nodup)
    (hg : g ∈ gs.entries) : gs.matching lead = [g] := by
  obtain ⟨hdigits, hlower⟩ := h.digits
  have hnamed : gs.named lead = [] :=
    List.filter_eq_nil_iff.2 fun e he => Bool.eq_false_iff.1 (h.no_name e he)
  rw [Grants.matching, if_pos hnamed, identified_eq, if_pos hdigits, hlower,
    filter_eq_singleton_iff hnd hg]
  exact ⟨h.start, h.others⟩

/-- A text that matches one grant only is its name, or begins its id. -/
theorem own_of_matching (hnd : gs.entries.Nodup) (hg : g ∈ gs.entries) (h : gs.matching q = [g]) :
    gs.OwnName g ∨ ∃ lead, gs.OwnStart g lead := by
  rw [Grants.matching] at h
  split at h
  · next hnamed =>
    rw [identified_eq] at h
    split at h
    · next hdigits =>
      obtain ⟨hstart, hothers⟩ := (filter_eq_singleton_iff hnd hg).1 h
      refine .inr ⟨lowerAsciiAll q, ?_, hstart, hothers, fun e he => ?_⟩
      · intro hempty
        have hnil : q.toList.map lowerAscii = [] := by
          rw [← toList_lowerAsciiAll, hempty, String.toList_empty]
        rw [List.map_eq_nil_iff.1 hnil] at hdigits
        cases hdigits
      · rw [sameIgnoringCase_lowered]
        exact Bool.eq_false_iff.2 (List.filter_eq_nil_iff.1 hnamed e he)
    · cases h
  · obtain ⟨hname, hothers⟩ := (filter_eq_singleton_iff hnd hg).1 h
    refine .inl fun e he hne => Bool.eq_false_iff.2 fun hsame => ?_
    have hq : sameIgnoringCase e.name q = true := by
      rw [sameIgnoringCase_iff] at hsame hname ⊢
      exact hsame.trans hname
    rw [hothers e he hne] at hq
    cases hq

theorem exists_revoke_iff (hnd : gs.entries.Nodup) (hg : g ∈ gs.entries) :
    (∃ q rest, gs.revoke q = .ok (rest, g) ∧ rest.entries = gs.entries.erase g) ↔
      gs.OwnName g ∨ ∃ lead, gs.OwnStart g lead := by
  simp only [exists_revoke_iff_matching hnd]
  constructor
  · rintro ⟨q, hmatch⟩
    exact own_of_matching hnd hg hmatch
  · rintro (hname | ⟨lead, hlead⟩)
    · exact ⟨g.name, hname.matching hnd hg⟩
    · exact ⟨lead, hlead.matching hnd hg⟩

theorem nodup_entries_after (calls : List Call) : (after calls).entries.Nodup :=
  (nodup_keys_after calls).of_map _

/-- Grants of one name and one id cannot be told apart by any text. -/
theorem not_revoke_of_twin (hnd : gs.entries.Nodup) (hg : g ∈ gs.entries) (hh : h ∈ gs.entries)
    (hne : h ≠ g) (hname : sameIgnoringCase h.name g.name = true) (huid : h.uid = g.uid) :
    ¬ ∃ q rest, gs.revoke q = .ok (rest, g) ∧ rest.entries = gs.entries.erase g := by
  rw [exists_revoke_iff hnd hg]
  rintro (hown | ⟨lead, hown⟩)
  · rw [hown h hh hne] at hname
    cases hname
  · have hstart := hown.start
    rw [← huid, hown.others h hh hne] at hstart
    cases hstart

/-- After any calls, some text revokes a grant and leaves all others iff the grant has its name for
itself, or its id has a beginning for itself that is no name. -/
theorem revocable_iff_own (calls : List Call) (g : Grant) (hg : g ∈ (after calls).entries) :
    (∃ q rest, (after calls).revoke q = .ok (rest, g) ∧
      rest.entries = (after calls).entries.erase g) ↔
    (after calls).OwnName g ∨ ∃ lead, (after calls).OwnStart g lead :=
  exists_revoke_iff (nodup_entries_after calls) hg

/-- The name is shared, and a name that looks like a beginning of the id covers a shorter one. -/
theorem revocable_iff_own_start :
    let g : Grant := ⟨1, 0xabc0000000000001, "bob"⟩
    let calls : List Call := [.grant g.hub g.uid g.name, .grant 1 0xdead000000000002 "BOB",
      .grant 2 0xabd0000000000003 "ABC"]
    g ∈ (after calls).entries ∧ (after calls).OwnStart g "abc0" ∧
      ∃ q rest, (after calls).revoke q = .ok (rest, g) ∧
        rest.entries = (after calls).entries.erase g := by
  intro g calls
  have hg : g ∈ (after calls).entries := by decide +kernel
  have hown : (after calls).OwnStart g "abc0" := by
    refine ⟨by decide, by decide +kernel, ?_, ?_⟩
    · decide +kernel
    · decide +kernel
  exact ⟨hg, hown, (revocable_iff_own calls g hg).2 (.inr ⟨"abc0", hown⟩)⟩

/-- A user who has the same name and id on two hubs keeps both grants. -/
theorem not_revocable :
    ¬ ∀ calls, ∀ g ∈ (after calls).entries, ∃ q rest, (after calls).revoke q = .ok (rest, g) ∧
      rest.entries = (after calls).entries.erase g := by
  intro h
  let calls : List Call := [.grant 1 5 "bob", .grant 2 5 "bob"]
  have hentries : (after calls).entries = [⟨1, 5, "bob"⟩, ⟨2, 5, "bob"⟩] := by decide +kernel
  have hfirst : ⟨1, 5, "bob"⟩ ∈ (after calls).entries := by simp [hentries]
  have hsecond : ⟨2, 5, "bob"⟩ ∈ (after calls).entries := by simp [hentries]
  exact not_revoke_of_twin (nodup_entries_after calls) hfirst hsecond (by decide)
    (sameIgnoringCase_iff.2 rfl) rfl (h calls _ hfirst)

end Grants
end HubConsole
