import HubConsole.Proofs.Identity
import HubConsole.Proofs.Value
import Mathlib.Data.List.Induction
import Mathlib.Data.List.InsertIdx

/-!
# The table of granted slots

What holds of the table after any calls that grant and revoke slots. No user has two grants on one
hub (`nodup_keys_after`), and the grants stand in the order of the calls that made them
(`Grants.GrantedAt`). A text is looked up by two rules, the names and, if none of them is meant, the
beginnings of ids; the rule that decides gives the only grant that it matches or reports all of them
(`Grants.Answers`). What is found is what gets revoked.
-/

namespace HubConsole
open Text Result

namespace Grants

/-! ### Calls -/

inductive Call where
  | grant (hub : HubId) (uid : UserId) (name : String)
  | revoke (query : String)
deriving DecidableEq, Repr

/-- The table after one more call. A call that fails leaves it as it is. -/
def step (gs : Grants) : Call → Grants
  | .grant hub uid name => (gs.add? hub uid name).getD gs
  | .revoke query => match gs.revoke query with
    | .ok (rest, _) => rest
    | .error _ => gs

/-- The table after some calls. -/
def after (calls : List Call) : Grants := calls.foldl step empty

/-- What tells grants apart. -/
def keys (gs : Grants) : List (HubId × UserId) := gs.entries.map fun g => (g.hub, g.uid)

variable {gs : Grants} {g h : Grant} {hub : HubId} {uid : UserId} {q : String} {c : Call}
  {calls : List Call} {i t u : Nat}

theorem after_concat (calls : List Call) (c : Call) : after (calls ++ [c]) = (after calls).step c := by
  rw [after, List.foldl_append]
  rfl

theorem holds_iff : gs.holds hub uid = true ↔ (hub, uid) ∈ gs.keys := by
  simp only [holds, keys, List.any_eq_true, List.mem_map, Bool.and_eq_true, beq_iff_eq,
    Prod.mk.injEq]

theorem revoke_eq_ok_iff {rest : Grants} : gs.revoke q = .ok (rest, g) ↔
    ∃ i, gs.find q = .ok i ∧ gs.entries[i]? = some g ∧ rest = ⟨gs.entries.eraseIdx i⟩ := by
  rw [revoke, bind_eq_ok_iff]
  refine exists_congr fun i => and_congr_right fun _ => ?_
  cases gs.entries[i]? with
  | none => simp
  | some e =>
    rw [pure_eq_ok_iff, Prod.mk.injEq, Option.some.injEq, and_comm]
    exact and_congr_right fun _ => eq_comm

/-- A call adds a grant at the end, or takes one out, or does nothing. -/
theorem step_cases (gs : Grants) (c : Call) : gs.step c = gs ∨
    (∃ g, c = .grant g.hub g.uid g.name ∧ gs.holds g.hub g.uid = false ∧
      gs.step c = ⟨gs.entries ++ [g]⟩) ∨
    ∃ i, gs.step c = ⟨gs.entries.eraseIdx i⟩ := by
  cases c with
  | grant hub uid name =>
    cases hheld : gs.holds hub uid with
    | true => exact .inl (by simp [step, add?, hheld])
    | false => exact .inr (.inl ⟨⟨hub, uid, name⟩, rfl, hheld, by simp [step, add?, hheld]⟩)
  | revoke q =>
    cases hrevoke : gs.revoke q with
    | error e => exact .inl (by simp [step, hrevoke])
    | ok result =>
      obtain ⟨rest, g⟩ := result
      obtain ⟨i, -, -, rfl⟩ := revoke_eq_ok_iff.1 hrevoke
      exact .inr (.inr ⟨i, by simp [step, hrevoke]⟩)

/-! ### One grant for a user on a hub -/

theorem nodup_keys_step (h : gs.keys.Nodup) (c : Call) : (gs.step c).keys.Nodup := by
  rcases gs.step_cases c with hstep | ⟨g, -, hnew, hstep⟩ | ⟨i, hstep⟩
  · rwa [hstep]
  · have hkey : (g.hub, g.uid) ∉ gs.keys := by
      rw [← holds_iff, hnew]
      exact Bool.false_ne_true
    rw [hstep, keys, List.map_append, List.nodup_append]
    refine ⟨h, List.pairwise_singleton _ _, ?_⟩
    rintro k hk l hl rfl
    rw [List.mem_singleton.1 hl] at hk
    exact hkey hk
  · rw [hstep]
    exact h.sublist ((List.eraseIdx_sublist _ _).map _)

theorem nodup_keys_after (calls : List Call) : (after calls).keys.Nodup := by
  induction calls using List.reverseRecOn with
  | nil => exact List.nodup_nil
  | append_singleton calls c ih =>
    rw [after_concat]
    exact nodup_keys_step ih c

/-! ### The order of granting -/

/-- The call at place `t` has made the grant, and no later call has taken it out. -/
structure GrantedAt (calls : List Call) (g : Grant) (t : Nat) : Prop where
  call : calls[t]? = some (.grant g.hub g.uid g.name)
  new : (after (calls.take t)).holds g.hub g.uid = false
  kept : ∀ u, t < u → g ∈ (after (calls.take u)).entries

theorem GrantedAt.lt (h : GrantedAt calls g t) : t < calls.length :=
  (List.getElem?_eq_some_iff.1 h.call).1

/-- A grant cannot be made while it is there. -/
theorem GrantedAt.unique (ht : GrantedAt calls g t) (hu : GrantedAt calls g u) : t = u := by
  have hle : ∀ {t u}, GrantedAt calls g t → GrantedAt calls g u → u ≤ t := by
    intro t u ht hu
    refine Nat.le_of_not_lt fun hlt => ?_
    have hkey : (g.hub, g.uid) ∈ (after (calls.take u)).keys :=
      List.mem_map_of_mem (ht.kept u hlt)
    rw [← holds_iff, hu.new] at hkey
    cases hkey
  exact Nat.le_antisymm (hle hu ht) (hle ht hu)

/-- A grant that is still there was made by the same call as before. -/
theorem GrantedAt.concat (h : GrantedAt calls g t) (hg : g ∈ (after (calls ++ [c])).entries) :
    GrantedAt (calls ++ [c]) g t := by
  have hlt := h.lt
  refine ⟨?_, ?_, fun u hu => ?_⟩
  · rw [List.getElem?_append_left hlt, h.call]
  · rw [List.take_append_of_le_length (Nat.le_of_lt hlt)]
    exact h.new
  · rcases Nat.lt_or_ge calls.length u with hlong | hshort
    · rw [List.take_of_length_le (by rw [List.length_append, List.length_singleton]; omega)]
      exact hg
    · rw [List.take_append_of_le_length hshort]
      exact h.kept u hu

theorem grantedAt_concat (hnew : (after calls).holds g.hub g.uid = false)
    (hg : g ∈ (after (calls ++ [.grant g.hub g.uid g.name])).entries) :
    GrantedAt (calls ++ [.grant g.hub g.uid g.name]) g calls.length := by
  refine ⟨List.getElem?_concat_length, ?_, fun u hu => ?_⟩
  · rwa [List.take_left]
  · rwa [List.take_of_length_le (by rw [List.length_append, List.length_singleton]; omega)]

/-- The grants can be numbered by the calls that made them, and the numbers go up. -/
theorem exists_numbered (calls : List Call) : ∃ numbered : List (Grant × Nat),
    numbered.map Prod.fst = (after calls).entries ∧ numbered.Pairwise (fun a b => a.2 < b.2) ∧
      ∀ e ∈ numbered, GrantedAt calls e.1 e.2 := by
  induction calls using List.reverseRecOn with
  | nil => exact ⟨[], rfl, .nil, by simp⟩
  | append_singleton calls c ih =>
    obtain ⟨numbered, hfst, hup, hgranted⟩ := ih
    -- what is left of the old numbers is right for the calls with one more
    have hkeep : ∀ {kept : List (Grant × Nat)}, kept.Sublist numbered →
        (∀ e ∈ kept, e.1 ∈ (after (calls ++ [c])).entries) →
        ∀ e ∈ kept, GrantedAt (calls ++ [c]) e.1 e.2 :=
      fun hsub hmem e he => (hgranted e (hsub.subset he)).concat (hmem e he)
    rcases (after calls).step_cases c with hstep | ⟨g, rfl, hnew, hstep⟩ | ⟨i, hstep⟩
    all_goals rw [← after_concat] at hstep
    · rw [hstep, ← hfst] at hkeep ⊢
      exact ⟨numbered, rfl, hup, hkeep (List.Sublist.refl _) fun e he => List.mem_map_of_mem he⟩
    · rw [← hfst] at hstep
      have hlast : g ∈ (after (calls ++ [.grant g.hub g.uid g.name])).entries := by
        rw [hstep]
        simp
      refine ⟨numbered ++ [(g, calls.length)], by rw [hstep]; simp, ?_, ?_⟩
      · rw [List.pairwise_append]
        refine ⟨hup, List.pairwise_singleton _ _, fun e he f hf => ?_⟩
        obtain rfl := List.mem_singleton.1 hf
        exact (hgranted e he).lt
      · rw [List.forall_mem_append, List.forall_mem_singleton]
        refine ⟨hkeep (List.Sublist.refl _) fun e he => ?_, grantedAt_concat hnew hlast⟩
        rw [hstep]
        exact List.mem_append_left _ (List.mem_map_of_mem he)
    · rw [← hfst, List.eraseIdx_map] at hstep
      rw [hstep] at hkeep ⊢
      have hsub : (numbered.eraseIdx i).Sublist numbered := List.eraseIdx_sublist _ _
      exact ⟨numbered.eraseIdx i, rfl, hup.sublist hsub, hkeep hsub fun e he => List.mem_map_of_mem he⟩

theorem existsUnique_grantedAt (hg : g ∈ (after calls).entries) : ∃! t, GrantedAt calls g t := by
  obtain ⟨numbered, hfst, -, hgranted⟩ := exists_numbered calls
  rw [← hfst] at hg
  obtain ⟨e, he, rfl⟩ := List.mem_map.1 hg
  exact ⟨e.2, hgranted e he, fun u hu => hu.unique (hgranted e he)⟩

theorem pairwise_granted (calls : List Call) : (after calls).entries.Pairwise fun g h =>
    ∀ t u, GrantedAt calls g t → GrantedAt calls h u → t < u := by
  obtain ⟨numbered, hfst, hup, hgranted⟩ := exists_numbered calls
  rw [← hfst, List.pairwise_map]
  refine hup.imp_of_mem fun {a b} ha hb hab t u ht hu => ?_
  rwa [ht.unique (hgranted a ha), hu.unique (hgranted b hb)]

/-! ### Looking up -/

/-- The grants whose name a text is, in any letter case. -/
def named (gs : Grants) (q : String) : List Grant :=
  gs.entries.filter fun g => sameIgnoringCase g.name q

/-- The grants whose id a text begins, in any letter case. -/
def identified (gs : Grants) (q : String) : List Grant :=
  gs.entries.filter fun g =>
    !q.toList.isEmpty && q.toList.all isHexDigit && startsWith (idText g.uid) (lowerAsciiAll q)

/-- The answer of a rule that matches some grants: the place of the only one, or all of them. -/
def Answers (gs : Grants) (q : String) (found : List Grant) (answer : Except Error Nat) : Prop :=
  (∃ g i, found = [g] ∧ gs.entries[i]? = some g ∧ answer = .ok i) ∨
    2 ≤ found.length ∧ answer = .error (.ambiguous q found)

theorem isHexDigit_lowerAscii (c : Char) : isHexDigit (lowerAscii c) = isHexDigit c := by
  refine char_cases (P := fun c => isHexDigit (lowerAscii c) = isHexDigit c) ?_ (fun c hc => ?_) c
  · decide
  · rw [lowerAscii_of_ge hc]

theorem map_fst_places (gs : Grants) (p : Grant → Bool) :
    (gs.places p).map Prod.fst = gs.entries.filter p := by
  have hfilter := List.filter_map (f := Prod.fst) (p := p) (l := gs.entries.zipIdx)
  rw [List.zipIdx_map_fst] at hfilter
  exact hfilter.symm

theorem places_eq_nil_iff {p : Grant → Bool} : gs.places p = [] ↔ gs.entries.filter p = [] := by
  rw [← map_fst_places, List.map_eq_nil_iff]

theorem answers_single {p : Grant → Bool} (h : gs.entries.filter p ≠ []) :
    gs.Answers q (gs.entries.filter p) (single q (gs.places p)) := by
  rw [← map_fst_places] at h ⊢
  rcases hplaces : gs.places p with _ | ⟨⟨g, i⟩, _ | ⟨e, rest⟩⟩
  · rw [hplaces] at h
    exact absurd rfl h
  · have hmem : (g, i) ∈ gs.places p := by
      rw [hplaces]
      exact List.mem_cons_self
    exact .inl ⟨g, i, rfl, List.mem_zipIdx_iff_getElem?.1 (List.mem_of_mem_filter hmem), rfl⟩
  · exact .inr ⟨by simp, rfl⟩

theorem isIdStart_lowered (q : String) : isIdStart (lowerAsciiAll q).toList =
    (!q.toList.isEmpty && q.toList.all isHexDigit) := by
  rw [isIdStart, toList_lowerAsciiAll, List.isEmpty_map, List.all_map]
  congr 2
  funext c
  exact isHexDigit_lowerAscii c

theorem find_of_named (h : gs.named q ≠ []) : gs.Answers q (gs.named q) (gs.find q) := by
  have hplaces : gs.find q = single q (gs.places fun g => sameIgnoringCase g.name q) := by
    rw [find]
    split
    · next hnone => exact absurd (places_eq_nil_iff.1 hnone) h
    · rfl
  rw [hplaces]
  exact answers_single h

/-- With no name to decide, a text that can begin an id is looked up among the ids. -/
theorem find_of_not_named (h : gs.named q = []) : gs.find q =
    if (!q.toList.isEmpty && q.toList.all isHexDigit) = true then
      match gs.places fun g => startsWith (idText g.uid) (lowerAsciiAll q) with
      | [] => .error (.notFound q)
      | found => single q found
    else .error (.notFound q) := by
  rw [find, places_eq_nil_iff.2 h]
  simp only [isIdStart_lowered]
  rfl

theorem identified_eq (gs : Grants) (q : String) : gs.identified q =
    if (!q.toList.isEmpty && q.toList.all isHexDigit) = true then
      gs.entries.filter fun g => startsWith (idText g.uid) (lowerAsciiAll q)
    else [] := by
  rw [identified]
  split
  · next hq => simp only [hq, Bool.true_and]
  · next hq => simp [Bool.eq_false_iff.2 hq]

theorem find_of_identified (hname : gs.named q = []) (h : gs.identified q ≠ []) :
    gs.Answers q (gs.identified q) (gs.find q) := by
  rw [find_of_not_named hname]
  rw [identified_eq] at h ⊢
  split at h
  · next hq =>
    rw [if_pos hq, if_pos hq]
    split
    · next hnone => exact absurd (places_eq_nil_iff.1 hnone) h
    · exact answers_single h
  · exact absurd rfl h

theorem find_of_neither (hname : gs.named q = []) (h : gs.identified q = []) :
    gs.find q = .error (.notFound q) := by
  rw [find_of_not_named hname]
  rw [identified_eq] at h
  split at h
  · next hq => rw [if_pos hq, places_eq_nil_iff.2 h]
  · next hq => rw [if_neg hq]

/-! ### Revoking -/

/-- The grants that a text matches by the rule that decides. -/
def matching (gs : Grants) (q : String) : List Grant :=
  if gs.named q = [] then gs.identified q else gs.named q

theorem answers_matching (h : gs.matching q ≠ []) :
    gs.Answers q (gs.matching q) (gs.find q) := by
  rw [matching] at h ⊢
  split at h
  · next hname => rw [if_pos hname]; exact find_of_identified hname h
  · next hname => rw [if_neg hname]; exact find_of_named hname

theorem find_of_matching_eq_nil (h : gs.matching q = []) : gs.find q = .error (.notFound q) := by
  rw [matching] at h
  split at h
  · next hname => exact find_of_neither hname h
  · next hname => exact absurd h hname

/-- What is found is the only grant that matches. -/
theorem matching_of_find (h : gs.find q = .ok i) :
    ∃ g, gs.matching q = [g] ∧ gs.entries[i]? = some g := by
  by_cases hnone : gs.matching q = []
  · rw [find_of_matching_eq_nil hnone] at h
    cases h
  · rcases answers_matching hnone with ⟨g, j, hfound, hg, hfind⟩ | ⟨-, hfind⟩
    · rw [hfind] at h
      obtain rfl := Except.ok.inj h
      exact ⟨g, hfound, hg⟩
    · rw [hfind] at h
      cases h

/-- The grant at the place that is found is revoked, and all others stay as they are. -/
theorem exists_split_of_find (h : gs.find q = .ok i) : ∃ before g rest,
    gs.entries = before ++ g :: rest ∧ before.length = i ∧
      gs.revoke q = .ok (⟨before ++ rest⟩, g) ∧ gs.step (.revoke q) = ⟨before ++ rest⟩ := by
  obtain ⟨g, -, hg⟩ := matching_of_find h
  obtain ⟨hi, hget⟩ := List.getElem?_eq_some_iff.1 hg
  have hrevoke : gs.revoke q =
      .ok (⟨gs.entries.take i ++ gs.entries.drop (i + 1)⟩, g) := by
    rw [revoke_eq_ok_iff]
    exact ⟨i, h, hg, by rw [List.eraseIdx_eq_take_drop_succ]⟩
  refine ⟨gs.entries.take i, g, gs.entries.drop (i + 1), ?_, ?_, hrevoke, ?_⟩
  · rw [← hget, ← List.drop_eq_getElem_cons hi, List.take_append_drop]
  · exact List.length_take_of_le (Nat.le_of_lt hi)
  · simp only [step, hrevoke]

theorem revoke_of_error {e : Error} (h : gs.find q = .error e) :
    gs.revoke q = .error e ∧ gs.step (.revoke q) = gs := by
  have hrevoke : gs.revoke q = .error e := by
    rw [revoke, h]
    rfl
  exact ⟨hrevoke, by simp [step, hrevoke]⟩

/-! ### The names that are offered -/

theorem mem_names_iff {lead name : String} : name ∈ gs.names lead ↔
    ∃ g ∈ gs.entries, startsWith (lowered g.name) (lowered lead) = true ∧ g.name = name := by
  rw [names, List.mem_eraseDups, List.mem_mergeSort, List.mem_map]
  simp only [List.mem_filter, and_assoc]

theorem named_of_mem_names {lead name : String} (h : name ∈ gs.names lead) :
    gs.named name ≠ [] := by
  obtain ⟨g, hg, -, rfl⟩ := mem_names_iff.1 h
  have hmem : g ∈ gs.named g.name := List.mem_filter.2 ⟨hg, sameIgnoringCase_iff.2 rfl⟩
  exact List.ne_nil_of_mem hmem

theorem found_of_mem_names {lead name : String} (h : name ∈ gs.names lead) :
    (∃ i, gs.find name = .ok i) ∨
      ∃ found, gs.find name = .error (.ambiguous name found) := by
  rcases find_of_named (named_of_mem_names h) with ⟨g, i, -, -, hfind⟩ | ⟨-, hfind⟩
  · exact .inl ⟨i, hfind⟩
  · exact .inr ⟨_, hfind⟩

end Grants

/-! ### The tables of sessions -/

namespace Session
variable {s t : Session} {c : Command} {args : String}

/-- A command changes the table by calls only. -/
theorem Outcome.grants (h : Outcome s c args t) :
    ∃ calls : List Grants.Call, t.grants = calls.foldl Grants.step s.grants := by
  cases h with
  | @granted args hub u grants here user add =>
    exact ⟨[.grant hub u.uid u.name], by simp [Grants.step, add]⟩
  | @revoked args grants g revoke => exact ⟨[.revoke args], by simp [Grants.step, revoke]⟩
  | @closedHub _ hub =>
    obtain ⟨link, heq⟩ := hangUp_eq s hub
    exact ⟨[], by rw [heq]; rfl⟩
  | reconnected | reconnectedAll | reconnectedNone | disconnectedAll => exact ⟨[], by simp⟩
  | _ => exact ⟨[], rfl⟩

theorem grants_step (s : Session) (e : Event) :
    ∃ calls : List Grants.Call, (s.step e).grants = calls.foldl Grants.step s.grants := by
  cases e with
  | act a =>
    cases a with
    | line line =>
      rcases dispatch_cases s line with ⟨-, heq⟩ | ⟨-, -, f, -, -, heq⟩ | ⟨c, args, -, ho⟩
      · exact ⟨[], by rw [step, act, heq]; rfl⟩
      · exact ⟨[], by rw [step, act, heq]; rfl⟩
      · exact ho.grants
    | autoconnect =>
      obtain ⟨tabs, link, log, heq, -⟩ :=
        autoconnect_induction (s := s) (P := fun _ => True) trivial fun _ _ _ _ => trivial
      exact ⟨[], by rw [step, act, heq]; rfl⟩
    | next => exact ⟨[], rfl⟩
    | previous => exact ⟨[], rfl⟩
  | world => exact ⟨[], rfl⟩

/-- The table of a session is one that calls make. -/
theorem exists_calls (store : Store) (link : Link) (es : List Event) :
    ∃ calls, ((Session.new store link).after es).grants = Grants.after calls := by
  refine after_induction (P := fun s => ∃ calls, s.grants = Grants.after calls) ⟨[], rfl⟩ ?_ es
  rintro s e ⟨calls, hcalls⟩
  obtain ⟨more, hmore⟩ := s.grants_step e
  exact ⟨calls ++ more, by rw [hmore, hcalls, Grants.after, Grants.after, List.foldl_append]⟩

end Session

namespace Grants

/-- After any calls, no user has two grants on one hub, and the grants stand in the order in which
they were made. A text that is a name of grants in any letter case finds the only one, or all of them
are reported; else the same goes for the ids that it begins; else nothing is found. Revoking takes
out what is found and nothing else. Each name that is offered finds something. The tables of sessions
are of this kind. -/
theorem granted_slots :
    (∀ calls : List Call, (after calls).keys.Nodup ∧
      (∀ g ∈ (after calls).entries, ∃! t, GrantedAt calls g t) ∧
      ((after calls).entries.Pairwise fun g h =>
        ∀ t u, GrantedAt calls g t → GrantedAt calls h u → t < u) ∧
      (∀ q, let gs := after calls
        (gs.named q ≠ [] → gs.Answers q (gs.named q) (gs.find q)) ∧
        (gs.named q = [] → gs.identified q ≠ [] → gs.Answers q (gs.identified q) (gs.find q)) ∧
        (gs.named q = [] → gs.identified q = [] → gs.find q = .error (.notFound q)) ∧
        (∀ i, gs.find q = .ok i → ∃ before g rest, gs.entries = before ++ g :: rest ∧
          before.length = i ∧ gs.revoke q = .ok (⟨before ++ rest⟩, g) ∧
          gs.step (.revoke q) = ⟨before ++ rest⟩) ∧
        ∀ e, gs.find q = .error e → gs.revoke q = .error e ∧ gs.step (.revoke q) = gs) ∧
      ∀ lead, ∀ name ∈ (after calls).names lead, (∃ i, (after calls).find name = .ok i) ∨
        ∃ found, (after calls).find name = .error (.ambiguous name found)) ∧
    ∀ (store : Store) (link : Link) (es : List Session.Event),
      ∃ calls, ((Session.new store link).after es).grants = after calls := by
  refine ⟨fun calls => ⟨nodup_keys_after calls, fun g => existsUnique_grantedAt,
    pairwise_granted calls, fun q => ?_, fun lead name => found_of_mem_names⟩,
    Session.exists_calls⟩
  exact ⟨find_of_named, find_of_identified, find_of_neither, fun i => exists_split_of_find,
    fun e => revoke_of_error⟩

/-- Two grants of one name and two of one beginning of ids, which is a name as well. -/
theorem granted_slots_shared :
    let bob : Grant := ⟨1, 0xabc0000000000001, "bob"⟩
    let abc : Grant := ⟨2, 0xdead000000000004, "ABC"⟩
    let calls : List Call := [.grant bob.hub bob.uid bob.name,
      .grant 2 0xabc0000000000002 "Bob", .grant abc.hub abc.uid abc.name, .revoke "BOB"]
    let gs := after calls
    (abc ∈ gs.entries ∧ ∃! t, GrantedAt calls abc t) ∧
    (gs.named "BOB" ≠ [] ∧ gs.Answers "BOB" (gs.named "BOB") (gs.find "BOB")) ∧
    (gs.named "abc0" = [] ∧ gs.identified "abc0" ≠ [] ∧
      gs.Answers "abc0" (gs.identified "abc0") (gs.find "abc0")) ∧
    (gs.named "f" = [] ∧ gs.identified "f" = [] ∧ gs.find "f" = .error (.notFound "f")) ∧
    (gs.find "abc" = .ok 2 ∧ ∃ before g rest, gs.entries = before ++ g :: rest ∧
      before.length = 2 ∧ gs.revoke "abc" = .ok (⟨before ++ rest⟩, g) ∧
      gs.step (.revoke "abc") = ⟨before ++ rest⟩) ∧
    ("Bob" ∈ gs.names "B" ∧ ((∃ i, gs.find "Bob" = .ok i) ∨
      ∃ found, gs.find "Bob" = .error (.ambiguous "Bob" found))) := by
  intro bob abc calls gs
  obtain ⟨-, htimes, -, hfind, hnames⟩ := granted_slots.1 calls
  have hgs : gs = ⟨[bob, ⟨2, 0xabc0000000000002, "Bob"⟩, abc]⟩ := by decide +kernel
  have habc : abc ∈ gs.entries := by decide +kernel
  have hbob : gs.named "BOB" ≠ [] := by decide +kernel
  have hnone : gs.named "abc0" = [] := by decide +kernel
  have hids : gs.identified "abc0" ≠ [] := by decide +kernel
  have hname : gs.named "f" = [] := by decide +kernel
  have hid : gs.identified "f" = [] := by decide +kernel
  have hplace : gs.find "abc" = .ok 2 := by decide +kernel
  have hoffered : "Bob" ∈ gs.names "B" := by
    rw [mem_names_iff, hgs]
    exact ⟨⟨2, 0xabc0000000000002, "Bob"⟩, by simp, by decide +kernel, rfl⟩
  exact ⟨⟨habc, htimes abc habc⟩, ⟨hbob, (hfind "BOB").1 hbob⟩,
    ⟨hnone, hids, (hfind "abc0").2.1 hnone hids⟩, ⟨hname, hid, (hfind "f").2.2.1 hname hid⟩,
    ⟨hplace, (hfind "abc").2.2.2.1 2 hplace⟩, hoffered, hnames "B" "Bob" hoffered⟩

end Grants
end HubConsole
