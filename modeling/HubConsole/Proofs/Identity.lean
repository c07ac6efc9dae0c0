import HubConsole.Proofs.Attended
import HubConsole.Proofs.HubIds
import HubConsole.Proofs.Notes

/-! # The identity of hubs

`Session.Identified`: no two hubs have the same name, and tabs and grants belong to hubs with a name.
Names are only ever added, under ids that are not in use, so this holds all through a run. Since hubs
without a tab are idle, an id that gets a name is new to tabs, grants and connections as well
(`hubs_identified`). -/

namespace HubConsole.Session
open Setting Result Store

variable {s t : Session} {c : Command} {args line : String} {hub : HubId} {u : Tab} {g : Grant}
  {name : String}

/-! ## What commands do to names, tabs and grants -/

/-- The name of a hub is no note on its address. -/
theorem get?_noteGiven_hubName {store : Store} {a? : Option Address} {k : HubId} :
    (store.noteGiven hub a?).get? k hubName = store.get? k hubName :=
  get?_noteGiven (.inr ⟨by decide, by decide⟩)

/-- Only the opening of a hub binds a name. -/
theorem StoreOutcome.namesGrow {store : Store} (h : StoreOutcome s c args store) :
    s.store.NamesGrow store := by
  cases h with
  | kept => exact .kept fun _ => rfl
  | assigned here trimmed nonempty assign =>
    exact .kept fun k => get?_note_of_assign (by simp) assign
  | unassigned here clear =>
    exact .kept fun k => get?_note_of_clear (by simp) clear
  | opened reads named =>
    exact (NamesGrow.hubNamed? named).trans_kept fun k => get?_noteGiven_hubName
  | connected => exact .kept fun k => get?_noteGiven_hubName

theorem known_of_hubNamed? {store : Store} {a? : Option Address}
    (named : s.store.hubNamed? name = some (store, hub)) : (store.noteGiven hub a?).Known hub := by
  refine ⟨(hubNamed?_eq_some named).1, name, ?_⟩
  rw [get?_noteGiven_hubName]
  exact get?_of_hubNamed? named

/-- A tab belongs to the hub of a tab that was there before, or to one that has just been opened. -/
theorem Outcome.hub_of_tab (h : Outcome s c args t) (hu : u ∈ t.tabs.all) (hhub : u.hub? = some hub) :
    (∃ v ∈ s.tabs.all, v.hub? = some hub) ∨ s.currentHub? = some hub ∨ t.store.Known hub := by
  have focused : ∀ {v : Tab}, u ∈ (s.tabs.focus v).all →
      (∃ v ∈ s.tabs.all, v.hub? = some hub) ∨ v.hub? = some hub := by
    intro v hv
    rw [Tabs.all_focus, Tabs.mem_add] at hv
    rcases hv with hv | rfl
    · exact .inl ⟨u, hv, hhub⟩
    · exact .inr hhub
  cases h with
  | opened reads named | openedIdly reads named | openedConnecting reads named =>
    refine (focused hu).imp_right fun heq => .inr ?_
    obtain rfl := Option.some.inj heq
    exact known_of_hubNamed? named
  | approached here | wrote here | unsent here =>
    refine (focused hu).imp_right fun heq => .inl ?_
    rw [here]
    exact heq
  | closedHub => exact .inl ⟨u, List.mem_of_mem_filter hu, hhub⟩
  | closedChat => exact .inl ⟨u, List.mem_of_mem_eraseIdx hu, hhub⟩
  | reconnected | reconnectedAll | reconnectedNone | disconnectedAll =>
    exact .inl ⟨u, by simpa using hu, hhub⟩
  | _ => exact .inl ⟨u, hu, hhub⟩

@[simp] theorem grants_info {text : String} : (s.info text).grants = s.grants := rfl

@[simp] theorem grants_error {text : String} : (s.error text).grants = s.grants := rfl

@[simp] theorem grants_restart {a : Address} : (s.restart hub a).grants = s.grants := by
  obtain ⟨link, log, h⟩ := restart_eq s hub a
  rw [h]

@[simp] theorem grants_disconnectAll {hubs : List HubId} :
    (s.disconnectAll hubs).grants = s.grants := by
  obtain ⟨link, h⟩ := disconnectAll_eq s hubs
  rw [h]

@[simp] theorem grants_reconnectAll {hubs : List HubId} :
    (s.reconnectAll hubs).1.grants = s.grants := by
  obtain ⟨link, log, h⟩ := reconnectAll_eq s hubs
  rw [h]

theorem mem_of_add? {gs gs' : Grants} {uid : UserId} (h : gs.add? hub uid name = some gs')
    (hg : g ∈ gs'.entries) : g ∈ gs.entries ∨ g.hub = hub := by
  unfold Grants.add? at h
  split at h
  · cases h
  · obtain rfl := Option.some.inj h
    rcases List.mem_append.1 hg with hg | hg
    · exact .inl hg
    · rw [List.mem_singleton.1 hg]
      exact .inr rfl

theorem mem_of_revoke {gs gs' : Grants} {query : String} {revoked : Grant}
    (h : gs.revoke query = .ok (gs', revoked)) (hg : g ∈ gs'.entries) : g ∈ gs.entries := by
  unfold Grants.revoke at h
  obtain ⟨i, -, h⟩ := bind_eq_ok_iff.1 h
  split at h
  · obtain ⟨rfl, -⟩ := Prod.mk.inj (pure_eq_ok_iff.1 h)
    exact List.mem_of_mem_eraseIdx hg
  · exact absurd h throw_ne_ok

/-- A grant was there before, or it is for a user of the current hub. -/
theorem Outcome.hub_of_grant (h : Outcome s c args t) (hg : g ∈ t.grants.entries) :
    g ∈ s.grants.entries ∨ s.currentHub? = some g.hub := by
  cases h with
  | granted here user add =>
    refine (mem_of_add? add hg).imp_right fun heq => ?_
    rw [here, heq]
  | revoked revoke => exact .inl (mem_of_revoke revoke hg)
  | @closedHub _ k =>
    obtain ⟨link, heq⟩ := hangUp_eq s k
    rw [heq] at hg
    exact .inl hg
  | reconnected | reconnectedAll | reconnectedNone | disconnectedAll =>
    exact .inl (by simpa using hg)
  | _ => exact .inl hg

/-! ## All through a run -/

/-- No two hubs have the same name, and all that belongs to a hub belongs to one with a name. -/
structure Identified (s : Session) : Prop where
  names : s.store.DistinctNames
  tabs : ∀ t ∈ s.tabs.all, ∀ hub, t.hub? = some hub → s.store.Known hub
  grants : ∀ g ∈ s.grants.entries, s.store.Known g.hub

namespace Identified

theorem known_currentHub (h : s.Identified) (hhub : s.currentHub? = some hub) :
    s.store.Known hub := by
  refine h.tabs _ (Tabs.current_mem fun hmain => ?_) hub hhub
  rw [currentHub?, hmain] at hhub
  cases hhub

theorem outcome (h : s.Identified) (ho : Outcome s c args t) : t.Identified := by
  have hgrow := ho.store.namesGrow
  refine ⟨hgrow.distinctNames h.names, fun u hu hub hhub => ?_, fun g hg => ?_⟩
  · rcases ho.hub_of_tab hu hhub with ⟨v, hv, hvhub⟩ | hcur | hknown
    · exact hgrow.known (h.tabs v hv hub hvhub)
    · exact hgrow.known (h.known_currentHub hcur)
    · exact hknown
  · rcases ho.hub_of_grant hg with hold | hcur
    · exact hgrow.known (h.grants g hold)
    · exact hgrow.known (h.known_currentHub hcur)

theorem dispatch (h : s.Identified) (line : String) : (s.dispatch line).Identified := by
  rcases dispatch_cases s line with ⟨-, heq⟩ | ⟨-, -, f, -, -, heq⟩ | ⟨c, args, -, ho⟩
  · rw [heq]
    exact h
  · rw [heq]
    exact ⟨h.names, h.tabs, h.grants⟩
  · exact h.outcome ho

theorem step (h : s.Identified) (e : Event) : (s.step e).Identified := by
  cases e with
  | act a =>
    cases a with
    | line line => exact h.dispatch line
    | autoconnect =>
      obtain ⟨tabs, link, log, heq, htabs⟩ := autoconnect_induction
        (P := fun ts => ∀ t ∈ ts.all, ∀ hub, t.hub? = some hub → s.store.Known hub) h.tabs
        fun ts hub hmem hts t ht k hk => by
          rcases Tabs.mem_add.1 ht with ht | rfl
          · exact hts t ht k hk
          · exact Option.some.inj hk ▸ mem_hubIds_iff.1 hmem
      show s.autoconnect.Identified
      rw [heq]
      exact ⟨h.names, htabs, h.grants⟩
    | next => exact ⟨h.names, h.tabs, h.grants⟩
    | previous => exact ⟨h.names, h.tabs, h.grants⟩
  | world => exact ⟨h.names, h.tabs, h.grants⟩

theorem new {store : Store} (h : store.DistinctNames) (link : Link) :
    (Session.new store link).Identified := by
  refine ⟨h, fun t ht hub hhub => ?_, fun g hg => ?_⟩
  · rw [List.mem_singleton.1 ht] at hhub
    cases hhub
  · cases hg

end Identified

/-- In a run that starts without settings no two hubs ever have the same name. -/
theorem identified_after (home : String) (link : Link) (es : List Event) :
    ((Session.new (.empty home) link).after es).Identified := by
  have hdistinct : (Store.empty home).DistinctNames := by
    rintro i j name - - ⟨⟩
  exact after_induction (.new hdistinct link) (fun _ e h => h.step e) es

theorem namesGrow_step (s : Session) (e : Event) : s.store.NamesGrow (s.step e).store := by
  rcases storeOutcome_step s e with heq | ⟨c, args, ho⟩
  · exact .kept fun _ => by rw [heq]
  · exact ho.namesGrow

/-- In a run that starts with distinct names of hubs they stay distinct, and each name stays with its
id and leads back to it. Tabs and grants belong to hubs with a name. An id that gets a name has had
nothing stored under it, and no tab, grant or connection. -/
theorem hubs_identified {store : Store} {link : Link} (distinct : store.DistinctNames)
    (idle : ∀ hub, link.isIdle hub = true) (es : List Event) (calm : (new store link).Calm es) :
    let s := (new store link).after es
    s.store.DistinctNames ∧
    (∀ hub name, s.store.get? hub hubName = some name →
      ∀ later, (s.after later).store.get? hub hubName = some name) ∧
    (∀ t ∈ s.tabs.all, ∀ hub, t.hub? = some hub → s.store.Known hub) ∧
    (∀ g ∈ s.grants.entries, s.store.Known g.hub) ∧
    (∀ hub, s.store.Known hub → s.store.findHub? (s.store.nameOfHub hub) = some hub) ∧
    ∀ line hub name, s.store.get? hub hubName = none →
      (s.dispatch line).store.get? hub hubName = some name →
      hub ≠ 0 ∧ (∀ n, s.store.get? hub n = none) ∧ (∀ t ∈ s.tabs.all, t.hub? ≠ some hub) ∧
        (∀ g ∈ s.grants.entries, g.hub ≠ hub) ∧ s.link.isIdle hub = true := by
  intro s
  have h : s.Identified := after_induction (.new distinct link) (fun _ e h => h.step e) es
  have hattended : s.Attended := (attended_new store idle).after calm
  refine ⟨h.names, ?_, h.tabs, h.grants, ?_, ?_⟩
  · intro hub name hget later
    exact after_induction (P := fun s => s.store.get? hub hubName = some name) hget
      (fun s e => (namesGrow_step s e).get?) later
  · rintro hub ⟨hne, name, hget⟩
    rw [nameOfHub_eq hget]
    exact h.names.findHub? hne hget
  · intro line hub name hnone hget
    obtain ⟨hne, hunused⟩ := (namesGrow_step s (.act (.line line))).get?_of_bound hnone hget
    have hunknown : ¬ s.store.Known hub := by
      rintro ⟨-, name, hname⟩
      rw [hnone] at hname
      cases hname
    refine ⟨hne, hunused, fun t ht hhub => hunknown (h.tabs t ht hub hhub), ?_, ?_⟩
    · rintro g hg rfl
      exact hunknown (h.grants g hg)
    · by_contra hbusy
      have hmem := hattended hub (by simpa using hbusy)
      exact hunknown (h.tabs _ hmem hub rfl)

/-- With the highest id taken, new hubs get the lowest free ids. -/
theorem hubs_identified_highest :
    let s := (new (.ofEntries "/" [⟨18446744073709551615, "hubname", "z"⟩, ⟨1, "hubname", "a"⟩,
      ⟨1, "hubaddr", "adc://h:1/"⟩, ⟨1, "autoconnect", "true"⟩]) .offline).after
        [.act .autoconnect, .act (.line "/open -n b")]
    s.tabs.all = [.main, .hub 1, .hub 2] ∧ s.link.isIdle 1 = false ∧ s.store.DistinctNames ∧
      s.store.get? 3 hubName = none ∧
      (s.dispatch "/open -n c").store.get? 3 hubName = some "c" ∧
      ∀ n, s.store.get? 3 n = none := by
  intro s
  obtain ⟨hdistinct, -, -, -, -, hnew⟩ := @hubs_identified
    (.ofEntries "/" [⟨18446744073709551615, "hubname", "z"⟩, ⟨1, "hubname", "a"⟩,
      ⟨1, "hubaddr", "adc://h:1/"⟩, ⟨1, "autoconnect", "true"⟩]) .offline
    (.of_nodup (by decide)) (fun _ => rfl) [.act .autoconnect, .act (.line "/open -n b")]
    ⟨trivial, trivial, trivial⟩
  have hnone : s.store.get? 3 hubName = none := by rfl
  have hbound : (s.dispatch "/open -n c").store.get? 3 hubName = some "c" := by rfl
  obtain ⟨-, hunused, -⟩ := hnew "/open -n c" 3 "c" hnone hbound
  exact ⟨by rfl, by rfl, hdistinct, hnone, hbound, hunused⟩

end HubConsole.Session
