import HubConsole.Proofs.Identity
import HubConsole.Proofs.Stored
import HubConsole.Proofs.Unattended

/-! # A restart goes on with what was saved

Only hubs with a name have an address (`Session.Addressed`), so the hubs that are connected from the
start are all those that are marked for it and have an address. A session that starts with the
settings that another one leaves behind connects these, each to the address to which the one before
would have connected it anew (`restarts_as_saved`). -/

namespace HubConsole
open Setting Store

namespace Store
variable {s : Store} {d : Definition} {scope : Scope} {name raw : String} {hub : HubId}
  {hubs : List HubId} {a : Address}

/-! ## Marked hubs -/

theorem displayOf_eq_true_iff (hkind : d.kind = .bool) : s.displayOf d raw = "true" ↔
    (d.kind.parse s.home raw).toOption = some (.bool true) := by
  rw [displayOf, hkind]
  cases hparse : Kind.parse s.home .bool raw with
  | ok v =>
    cases Kind.parse_eq_ok_iff.1 hparse with
    | @bool b => cases b <;> simp [Except.toOption, Value.display, Value.raw]
  | error e =>
    simp only [Except.toOption, reduceCtorEq, iff_false]
    rintro rfl
    cases hparse

/-- A setting that is true or false counts as true if it is shown so. -/
theorem flag_iff (hd : definition name = .ok d) (hkind : d.kind = .bool)
    (htier : d.tiers.allows scope = true) :
    s.flag scope name = true ↔ (s.resolve scope name).map Resolved.text = .ok "true" := by
  obtain ⟨rfl, hvis⟩ := definition_eq_ok_iff.1 hd
  have hresolve : s.resolve scope d.name = .ok (s.effective d scope) :=
    resolve_eq_ok_iff.2 ⟨d, hvis, rfl, htier, rfl⟩
  have hfind : Setting.find? d.name = some d :=
    find?_eq_some_iff.2 ⟨rfl, List.mem_of_mem_filter hvis⟩
  rw [hresolve]
  unfold flag value? effective
  simp only [hfind, bind, Option.bind_some]
  cases s.effectiveRaw? d scope with
  | none => simp [Except.map, Resolved.text]
  | some p =>
    obtain ⟨raw, origin⟩ := p
    simp [Except.map, Resolved.text, displayOf_eq_true_iff hkind]

/-- The address of a hub that is to be connected from the start. -/
def marked? (s : Store) (hub : HubId) : Option Address :=
  if s.flag (.hub hub) "autoconnect" then s.notedAddress? hub else none

/-- The hubs among these that are to be connected from the start, with their addresses. -/
def marked (s : Store) (hubs : List HubId) : List (HubId × Address) :=
  hubs.filterMap fun hub => (s.marked? hub).map fun a => (hub, a)

theorem marked?_eq_some_iff : s.marked? hub = some a ↔
    (s.resolve (.hub hub) "autoconnect").map Resolved.text = .ok "true" ∧
      s.notedAddress? hub = some a := by
  rw [← flag_iff rfl rfl rfl, marked?]
  split <;> simp_all

theorem mem_marked_iff : (hub, a) ∈ s.marked hubs ↔ hub ∈ hubs ∧ s.marked? hub = some a := by
  unfold marked
  simp only [List.mem_filterMap, Option.map_eq_some_iff, Prod.mk.injEq]
  constructor
  · rintro ⟨k, hk, b, hb, rfl, rfl⟩
    exact ⟨hk, hb⟩
  · rintro ⟨hhub, ha⟩
    exact ⟨hub, hhub, a, ha, rfl, rfl⟩

theorem marked_cons_of_none (h : s.marked? hub = none) :
    s.marked (hub :: hubs) = s.marked hubs :=
  List.filterMap_cons_none (by rw [h]; rfl)

theorem marked_cons_of_some (h : s.marked? hub = some a) :
    s.marked (hub :: hubs) = (hub, a) :: s.marked hubs :=
  List.filterMap_cons_some (by rw [h]; rfl)

theorem pairwise_marked (s : Store) : (s.marked s.hubIds).Pairwise fun p q => p.1 < q.1 := by
  unfold marked
  rw [List.pairwise_filterMap]
  refine s.pairwise_hubIds.imp fun {i j} hlt p hp q hq => ?_
  obtain ⟨a, -, rfl⟩ := Option.map_eq_some_iff.1 hp
  obtain ⟨b, -, rfl⟩ := Option.map_eq_some_iff.1 hq
  exact hlt

end Store

namespace Session
variable {s t : Session} {c : Command} {args : String} {hub : HubId} {a : Address}

/-! ## Connections from the start -/

theorem connectMarked_of_none (h : s.store.marked? hub = none) : s.connectMarked hub = s := by
  rw [marked?] at h
  rw [connectMarked, h]

theorem connectMarked_of_some (h : s.store.marked? hub = some a) : s.connectMarked hub =
    { s with tabs := s.tabs.add (.hub hub) }.startConnect hub a := by
  rw [marked?] at h
  rw [connectMarked, h]

/-- Hubs that differ and have no tab are connected one by one, each with a new tab. -/
theorem foldl_connectMarked {hubs : List HubId} (hd : hubs.Nodup)
    (hnew : ∀ k ∈ hubs, .hub k ∉ s.tabs.all) :
    (hubs.foldl connectMarked s).link.requests =
        s.link.requests ++ (s.store.marked hubs).map (fun p => .connect p.1 p.2) ∧
      (hubs.foldl connectMarked s).tabs =
        ⟨s.tabs.all ++ (s.store.marked hubs).map (fun p => Tab.hub p.1), s.tabs.position⟩ := by
  induction hubs generalizing s with
  | nil => simp [marked]
  | cons hub hubs ih =>
    obtain ⟨hnot, hd⟩ := List.nodup_cons.1 hd
    have hrest : ∀ k ∈ hubs, .hub k ∉ s.tabs.all := fun k hk => hnew k (List.mem_cons_of_mem _ hk)
    rw [List.foldl_cons]
    cases hmark : s.store.marked? hub with
    | none =>
      rw [connectMarked_of_none hmark, marked_cons_of_none hmark]
      exact ih hd hrest
    | some a =>
      have hadd : s.tabs.add (.hub hub) = ⟨s.tabs.all ++ [.hub hub], s.tabs.position⟩ := by
        rw [Tabs.add, if_neg (hnew hub List.mem_cons_self)]
      rw [connectMarked_of_some hmark, marked_cons_of_some hmark, hadd]
      have hfree : ∀ k ∈ hubs, Tab.hub k ∉ s.tabs.all ++ [.hub hub] := by
        intro k hk hmem
        rcases List.mem_append.1 hmem with hmem | hmem
        · exact hrest k hk hmem
        · obtain rfl := Tab.hub.inj (List.mem_singleton.1 hmem)
          exact hnot hk
      obtain ⟨hrequests, htabs⟩ := ih (s :=
        { s with tabs := ⟨s.tabs.all ++ [Tab.hub hub], s.tabs.position⟩ }.startConnect hub a) hd hfree
      rw [hrequests, htabs]
      exact ⟨List.append_assoc .., congrArg (Tabs.mk · _) (List.append_assoc ..)⟩

/-- From the start the marked hubs are connected, each with a tab. The main tab stays current. -/
theorem autoconnect_new (store : Store) (link : Link) :
    (new store link).autoconnect.link.requests =
        link.requests ++ (store.marked store.hubIds).map (fun p => .connect p.1 p.2) ∧
      (new store link).autoconnect.tabs =
        ⟨.main :: (store.marked store.hubIds).map (fun p => Tab.hub p.1), 0⟩ :=
  foldl_connectMarked (s := new store link) store.nodup_hubIds fun _ _ hmem =>
    Tab.noConfusion (List.mem_singleton.1 hmem)

/-! ## Addresses belong to hubs with a name -/

/-- Only hubs with a name have an address, a tab or a grant. -/
structure Addressed (s : Session) : Prop where
  identified : s.Identified
  addresses : ∀ hub, s.store.get? hub hubAddress ≠ none → s.store.Known hub

/-- An address was noted before, or it is that of the current hub or of one just opened. -/
theorem StoreOutcome.hub_of_address {store : Store} (h : StoreOutcome s c args store)
    (ha : store.get? hub hubAddress ≠ none) :
    s.store.get? hub hubAddress ≠ none ∨ s.currentHub? = some hub ∨ store.Known hub := by
  cases h with
  | kept => exact .inl ha
  | assigned here trimmed nonempty assign =>
    rw [get?_note_of_assign (by simp) assign] at ha
    exact .inl ha
  | unassigned here clear =>
    rw [get?_note_of_clear (by simp) clear] at ha
    exact .inl ha
  | @opened _ o store k reads named =>
    by_cases hk : hub = k
    · subst hk
      exact .inr (.inr (known_of_hubNamed? named))
    · rw [get?_noteGiven (.inl hk)] at ha
      obtain ⟨-, rfl | rfl⟩ := hubNamed?_eq_some named
      · exact .inl ha
      · rw [get?_set, if_neg fun e => absurd e.2 (by decide)] at ha
        exact .inl ha
  | @connected _ k address tab =>
    by_cases hk : hub = k
    · subst hk
      exact .inr (.inl (by rw [currentHub?, tab]; rfl))
    · rw [get?_noteGiven (.inl hk)] at ha
      exact .inl ha

theorem Addressed.step (h : s.Addressed) (e : Event) : (s.step e).Addressed := by
  refine ⟨h.identified.step e, fun hub ha => ?_⟩
  rcases storeOutcome_step s e with heq | ⟨c, args, ho⟩
  · rw [heq] at ha ⊢
    exact h.addresses hub ha
  · rcases ho.hub_of_address ha with hold | hcur | hknown
    · exact ho.namesGrow.known (h.addresses hub hold)
    · exact ho.namesGrow.known (h.identified.known_currentHub hcur)
    · exact hknown

theorem addressed_new (home : String) (link : Link) : (new (.empty home) link).Addressed := by
  refine ⟨.new (fun i j name hi hj hiname => ?_) link, fun hub ha => ?_⟩
  · cases hiname
  · exact absurd rfl ha

/-- In a run that starts without settings, the hubs that are connected from the next start on are
those that are marked for it and have an address. -/
theorem mem_marked_after (home : String) (link : Link) (es : List Event) (hub : HubId) :
    let store := ((new (.empty home) link).after es).store
    hub ∈ (store.marked store.hubIds).map Prod.fst ↔
      (store.resolve (.hub hub) "autoconnect").map Resolved.text = .ok "true" ∧
        store.get? hub hubAddress ≠ none := by
  intro store
  have hsound : store.Sound :=
    (after_induction (sound_new home link) (fun _ e h => h.step e) es).store
  have haddressed : ((new (.empty home) link).after es).Addressed :=
    after_induction (addressed_new home link) (fun _ e h => h.step e) es
  obtain ⟨a?, hnoted⟩ := hsound.notes hub
  constructor
  · intro hmem
    obtain ⟨⟨k, a⟩, hp, rfl⟩ := List.mem_map.1 hmem
    obtain ⟨hmark, ha⟩ := marked?_eq_some_iff.1 (mem_marked_iff.1 hp).2
    rw [hnoted.notedAddress?] at ha
    refine ⟨hmark, ?_⟩
    rw [hnoted.address, ha]
    simp
  · rintro ⟨hmark, haddress⟩
    have hknown := haddressed.addresses hub haddress
    cases a? with
    | none => exact absurd hnoted.address haddress
    | some a =>
      have ha : store.marked? hub = some a := marked?_eq_some_iff.2 ⟨hmark, hnoted.notedAddress?⟩
      exact List.mem_map_of_mem (f := Prod.fst) (mem_marked_iff.2 ⟨mem_hubIds_iff.2 hknown, ha⟩)

/-! ## The next start -/

theorem StoreOutcome.home {store : Store} (h : StoreOutcome s c args store) :
    store.home = s.store.home := by
  cases h with
  | kept => rfl
  | assigned here trimmed nonempty assign =>
    obtain ⟨d, v, -, -, -, -, rfl, -⟩ := assign_eq_ok_iff.1 assign
    rfl
  | unassigned here clear =>
    obtain ⟨d, -, -, rfl, -⟩ := clear_eq_ok_iff.1 clear
    rfl
  | opened reads named =>
    rw [home_noteGiven]
    obtain ⟨-, rfl | rfl⟩ := hubNamed?_eq_some named <;> rfl
  | connected => exact home_noteGiven

/-- The home directory stays the same all through a run. -/
theorem home_after (es : List Event) : (s.after es).store.home = s.store.home := by
  refine after_induction (P := fun t => t.store.home = s.store.home) rfl (fun t e ht => ?_) es
  rcases storeOutcome_step t e with heq | ⟨c, args, ho⟩
  · rw [heq, ht]
  · rw [ho.home, ht]

/-- A hub is connected anew to the address that is noted for it, after the end of a connection. -/
theorem requests_reconnect (h : s.store.notedAddress? hub = some a) :
    ((s.focus (.hub hub)).dispatch "/reconnect").link.requests = s.link.requests ++
      ((if s.link.isIdle hub then [] else [.disconnect hub]) ++ [.connect hub a]) := by
  have hrun : (s.focus (.hub hub)).reconnect = .ok ((s.focus (.hub hub)).restart hub a) := by
    have hcur : (s.focus (.hub hub)).tabs.current = .hub hub := Tabs.current_focus
    have hnoted : (s.focus (.hub hub)).store.notedAddress? hub = some a := h
    rw [reconnect, hcur]
    dsimp only
    rw [hnoted]
    rfl
  have hdispatch : (s.focus (.hub hub)).dispatch "/reconnect" =
      (s.focus (.hub hub)).settle (s.focus (.hub hub)).reconnect := by rfl
  rw [hdispatch, hrun]
  change ((s.focus (.hub hub)).restart hub a).link.requests = _
  have hidle : (s.focus (.hub hub)).link.isIdle hub = s.link.isIdle hub := rfl
  rw [restart, hangUp, hidle]
  cases s.link.isIdle hub with
  | true => rfl
  | false => exact List.append_assoc s.link.requests [.disconnect hub] [.connect hub a]

/-- When a session quits that began without settings, the next start with the settings that it
leaves behind connects the hubs that are marked for it and have an address, in the order of their
ids, each to the address to which it would have been connected anew, and opens their tabs behind
the main one. All settings are as before. -/
theorem restarts_as_saved (home : String) (link : Link) (es : List Event) (o : Launch.Options)
    (w : Launch.Surroundings) :
    let s := (new (.empty home) link).after es
    let saved := (Launch.ending (s.dispatch "/quit")).toUTF8
    let t := (Launch.start { o with autoconnects := true }
      { w with home := some home, content := .bytes saved }).2
    (s.dispatch "/quit").quitting = true ∧
    ∃ hubs : List (HubId × Address), (hubs.Pairwise fun p q => p.1 < q.1) ∧
      (∀ hub, hub ∈ hubs.map Prod.fst ↔
        (s.store.resolve (.hub hub) "autoconnect").map Resolved.text = .ok "true" ∧
          s.store.get? hub hubAddress ≠ none) ∧
      (∀ hub a, (hub, a) ∈ hubs →
        ((s.focus (.hub hub)).dispatch "/reconnect").link.requests = s.link.requests ++
          ((if s.link.isIdle hub then [] else [.disconnect hub]) ++ [.connect hub a])) ∧
      t.link.requests = hubs.map (fun p => .connect p.1 p.2) ∧
      t.tabs.all = .main :: hubs.map (fun p => Tab.hub p.1) ∧ t.tabs.current = .main ∧
      t.store = s.store ∧
      ∀ scope name, t.store.resolve scope name = s.store.resolve scope name := by
  intro s saved t
  have hquit : s.dispatch "/quit" = { s with quitting := true } := by rfl
  have hhome : s.store.home = home := home_after es
  have ht : t = { (new s.store .offline).autoconnect with log := [] } := by
    obtain ⟨path, hfile⟩ := Launch.settingsFile_of_home o home
    let next : Launch.Surroundings := { w with home := some home, content := .bytes saved }
    have hbeginning := Launch.beginning_of_load (o := { o with autoconnects := true }) (w := next)
      hfile (load_writeDocument path _)
    change (Launch.start _ _).2 = _
    rw [Launch.start_eq, hbeginning, hquit]
    change { (new (.ofEntries home s.store.entries) .offline).autoconnect with log := [] } = _
    rw [← hhome, ofEntries_entries]
  have hstore : t.store = s.store := by
    rw [ht]
    exact store_autoconnect
  obtain ⟨hrequests, htabs⟩ := autoconnect_new s.store .offline
  refine ⟨by rw [hquit], s.store.marked s.store.hubIds, pairwise_marked s.store,
    mem_marked_after home link es, ?_, ?_, ?_, ?_, hstore, fun _ _ => by rw [hstore]⟩
  · intro hub a hmem
    exact requests_reconnect (marked?_eq_some_iff.1 (mem_marked_iff.1 hmem).2).2
  · rw [ht]
    exact hrequests
  · rw [ht]
    exact congrArg Tabs.all htabs
  · rw [ht]
    exact congrArg Tabs.current htabs

end Session
end HubConsole
