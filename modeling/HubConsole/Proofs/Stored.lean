import HubConsole.Proofs.Effect
import HubConsole.Proofs.Notes
import HubConsole.Proofs.Value

/-! # Stored values stay valid

In a run that starts without settings everything that is ever stored is a valid value of a setting
that the user can see, or a note on a hub (`valid_after`). The invariant is `Store.Sound`, which
speaks of single values by their names and of the notes on a hub by the address they amount to. -/

namespace HubConsole
open Setting Text

/-- The scope whose values are stored under an id. -/
def Scope.ofId (id : HubId) : Scope := if id = 0 then .global else .hub id

namespace Store

/-- A valid value of a setting that the user can see: its tier is allowed, and the value is the
canonical text of what it reads as. -/
def IsSetting (home : String) (e : Entry) : Prop :=
  ∃ d v, definition e.name = .ok d ∧ d.tiers.allows (.ofId e.scope) = true ∧
    d.kind.parse home e.value = .ok v ∧ v.raw = e.value ∧ IsTrimmed e.value ∧
    ∀ check ∈ d.check?, check.run e.value = .ok ()

/-- A note on a hub. A keyprint is noted along with an address over TLS. -/
def IsNote (s : Store) (e : Entry) : Prop :=
  (e.name = hubName ∧ Session.isHubName e.value = true) ∨
  (e.name = hubAddress ∧ ∃ a, Address.parse e.value = .ok a ∧ a.canonical = e.value) ∨
  (e.name = hubKeyprint ∧ (∃ k : Keyprint, k.text = e.value) ∧
    ∃ a, (s.get? e.scope hubAddress).map Address.parse = some (.ok a) ∧ a.protocol.isTls = true)

/-- Whether all that is stored is valid. -/
def Valid (s : Store) : Prop :=
  ∀ e ∈ s.entries, IsSetting s.home e ∨ (e.scope ≠ 0 ∧ s.IsNote e)

/-- The names of the notes on hubs. -/
def noteNames : List String := [hubName, hubAddress, hubKeyprint]

/-- What makes all that is stored valid, and what every operation keeps. -/
structure Sound (s : Store) : Prop where
  notes : ∀ hub, ∃ a?, s.Noted hub a?
  names : ∀ hub name, s.get? hub hubName = some name → Session.isHubName name = true
  /-- No hub has the id 0. -/
  hubs : ∀ note ∈ noteNames, s.get? 0 note = none
  settings : ∀ scope name value, name ∉ noteNames → s.get? scope name = some value →
    IsSetting s.home ⟨scope, name, value⟩

theorem sound_empty (home : String) : (empty home).Sound :=
  ⟨fun hub => ⟨none, noted_empty home hub⟩, by simp, by simp, by simp⟩

variable {s t : Store} {hub : HubId} {scope : Scope} {name raw value : String} {r : Resolved}

theorem ne_of_not_mem_noteNames (h : name ∉ noteNames) :
    name ≠ hubAddress ∧ name ≠ hubKeyprint :=
  ⟨fun e => h (e ▸ by simp [noteNames]), fun e => h (e ▸ by simp [noteNames])⟩

namespace Sound

theorem valid (h : s.Sound) : s.Valid := by
  intro e he
  rw [mem_entries_iff] at he
  by_cases hnote : e.name ∈ noteNames
  · right
    have hscope : e.scope ≠ 0 := by
      intro hzero
      rw [hzero, h.hubs _ hnote] at he
      cases he
    refine ⟨hscope, ?_⟩
    obtain ⟨a?, hn⟩ := h.notes e.scope
    simp only [noteNames, List.mem_cons, List.not_mem_nil, or_false] at hnote
    rcases hnote with hname | hname | hname
    · exact .inl ⟨hname, h.names _ _ (hname ▸ he)⟩
    · rw [hname, hn.address] at he
      obtain ⟨a, ha, hcan⟩ := Option.map_eq_some_iff.1 he
      refine .inr (.inl ⟨hname, { a with keyprint := none }, ?_, hcan⟩)
      rw [← hcan, (hn.wellFormed a ha).parse_canonical]
    · rw [hname, hn.keyprint] at he
      obtain ⟨k, hk, htext⟩ := Option.map_eq_some_iff.1 he
      obtain ⟨a, ha, hkey⟩ := Option.bind_eq_some_iff.1 hk
      have hw := hn.wellFormed a ha
      refine .inr (.inr ⟨hname, ⟨k, htext⟩, { a with keyprint := none }, ?_, hw.tls k hkey⟩)
      rw [hn.address, ha]
      simp [hw.parse_canonical]
  · exact .inl (h.settings _ _ _ hnote he)

/-! ## What is stored by commands -/

/-- A store is sound if what is new in it is a note on a hub or a valid value of a setting. -/
theorem of_get? (h : s.Sound) (hhome : t.home = s.home) (hnotes : ∀ hub, ∃ a?, t.Noted hub a?)
    (hnew : ∀ k n v, t.get? k n = some v → s.get? k n = some v ∨
      (n ∈ noteNames ∧ k ≠ 0 ∧ (n = hubName → Session.isHubName v = true)) ∨
      (n ∉ noteNames ∧ IsSetting s.home ⟨k, n, v⟩)) : t.Sound := by
  refine ⟨hnotes, fun k v hv => ?_, fun note hmem => ?_, fun k n v hn hv => ?_⟩
  · rcases hnew k hubName v hv with hold | ⟨-, -, hname⟩ | ⟨hnot, -⟩
    · exact h.names k v hold
    · exact hname rfl
    · exact absurd (by simp [noteNames]) hnot
  · cases hv : t.get? 0 note with
    | none => rfl
    | some v =>
      rcases hnew 0 note v hv with hold | ⟨-, hzero, -⟩ | ⟨hnot, -⟩
      · rw [h.hubs note hmem] at hold
        cases hold
      · exact absurd rfl hzero
      · exact absurd hmem hnot
  · rw [hhome]
    rcases hnew k n v hv with hold | ⟨hmem, -, -⟩ | ⟨-, hvalue⟩
    · exact h.settings k n v hn hold
    · exact absurd hmem hn
    · exact hvalue

theorem set (h : s.Sound) (hname : name ∉ noteNames)
    (hvalue : IsSetting s.home ⟨hub, name, value⟩) : (s.set hub name value).Sound := by
  obtain ⟨haddr, hkey⟩ := ne_of_not_mem_noteNames hname
  refine h.of_get? rfl (fun k => ?_) fun k n v hv => ?_
  · obtain ⟨a?, ha⟩ := h.notes k
    exact ⟨a?, ha.set haddr hkey⟩
  · rw [get?_set] at hv
    split at hv
    · next heq =>
      obtain ⟨rfl, rfl⟩ := heq
      obtain rfl := Option.some.inj hv
      exact .inr (.inr ⟨hname, hvalue⟩)
    · exact .inl hv

theorem erase (h : s.Sound) (hname : name ∉ noteNames) : (s.erase hub name).Sound := by
  obtain ⟨haddr, hkey⟩ := ne_of_not_mem_noteNames hname
  refine h.of_get? rfl (fun k => ?_) fun k n v hv => ?_
  · obtain ⟨a?, ha⟩ := h.notes k
    exact ⟨a?, ha.erase haddr hkey⟩
  · rw [get?_erase] at hv
    split at hv
    · cases hv
    · exact .inl hv

theorem assign (h : s.Sound) (hs : s.assign scope name raw = .ok (t, r)) (hraw : IsTrimmed raw)
    (hscope : .ofId scope.id = scope) : t.Sound := by
  obtain ⟨d, v, hd, htier, hparse, hcheck, rfl, -⟩ := assign_eq_ok_iff.1 hs
  obtain ⟨hname, hvis⟩ := definition_eq_ok_iff.1 hd
  have hnote : d.name ∉ noteNames := fun hmem => visible_name_ne hvis hmem rfl
  have hallowed : d.tiers.allows (.ofId scope.id) = true := by rw [hscope, htier]
  have htrimmed : IsTrimmed v.raw := Kind.isTrimmed_raw hparse hraw
  have hread : d.kind.parse s.home v.raw = .ok v :=
    Kind.parse_eq_ok_iff.2 (Kind.parse_eq_ok_iff.1 hparse).raw
  exact h.set hnote ⟨d, v, hname ▸ hd, hallowed, hread, rfl, htrimmed, hcheck⟩

theorem clear (h : s.Sound) (hs : s.clear scope name = .ok (t, r)) : t.Sound := by
  obtain ⟨d, hd, -, rfl, -⟩ := clear_eq_ok_iff.1 hs
  exact h.erase fun hmem => visible_name_ne (definition_eq_ok_iff.1 hd).2 hmem rfl

theorem hubNamed? (h : s.Sound) (hs : s.hubNamed? name = some (t, hub))
    (hname : Session.isHubName name = true) : t.Sound := by
  obtain ⟨hne, rfl | rfl⟩ := hubNamed?_eq_some hs
  · exact h
  refine h.of_get? rfl (fun k => ?_) fun k n v hv => ?_
  · obtain ⟨a?, ha⟩ := h.notes k
    exact ⟨a?, ha.set (by decide) (by decide)⟩
  · rw [get?_set] at hv
    split at hv
    · next heq =>
      obtain ⟨rfl, rfl⟩ := heq
      obtain rfl := Option.some.inj hv
      exact .inr (.inl ⟨by simp [noteNames], hne, fun _ => hname⟩)
    · exact .inl hv

theorem noteAddress {a : Address} (h : s.Sound) (hne : hub ≠ 0) (ha : a.WellFormed) :
    (s.noteAddress hub a).Sound := by
  refine h.of_get? home_noteAddress (fun k => ?_) fun k n v hv => ?_
  · obtain ⟨a?, hk⟩ := h.notes k
    by_cases heq : k = hub
    · subst heq
      exact ⟨_, hk.noteAddress ha⟩
    · exact ⟨a?, hk.noteAddress_of_ne heq⟩
  · by_cases hother : k ≠ hub ∨ (n ≠ hubAddress ∧ n ≠ hubKeyprint)
    · rw [get?_noteAddress hother] at hv
      exact .inl hv
    · -- one of the two notes on the address of this hub
      simp only [not_or, not_and_or, not_not] at hother
      obtain ⟨rfl, rfl | rfl⟩ := hother
      · exact .inr (.inl ⟨by simp [noteNames], hne, fun e => absurd e (by decide)⟩)
      · exact .inr (.inl ⟨by simp [noteNames], hne, fun e => absurd e (by decide)⟩)

theorem noteGiven {a? : Option Address} (h : s.Sound) (hne : hub ≠ 0)
    (ha : ∀ a ∈ a?, a.WellFormed) : (s.noteGiven hub a?).Sound := by
  cases a? with
  | none => exact h
  | some a => exact h.noteAddress hne (ha a rfl)

end Sound

theorem ne_zero_of_mem_hubIds (h : hub ∈ s.hubIds) : hub ≠ 0 := by
  unfold hubIds hubs at h
  simp only [List.mem_map, List.mem_filter, Bool.and_eq_true, bne_iff_ne] at h
  obtain ⟨_, ⟨e, ⟨-, hne, -⟩, rfl⟩, rfl⟩ := h
  exact hne

end Store

namespace Session

/-- What is stored is sound, and the tabs belong to hubs with ids of their own. -/
structure Sound (s : Session) : Prop where
  store : s.store.Sound
  tabs : ∀ t ∈ s.tabs.all, t.hub? ≠ some 0

variable {s : Session} {hub : HubId} {tier : Tier} {scope : Scope}

namespace Sound

theorem currentHub?_ne_zero (h : s.Sound) (hhub : s.currentHub? = some hub) : hub ≠ 0 := by
  rintro rfl
  refine h.tabs _ (Tabs.current_mem fun hmain => ?_) hhub
  rw [currentHub?, hmain] at hhub
  cases hhub

theorem ofId_scope (h : s.Sound) (hscope : s.scopeOf? tier = some scope) :
    .ofId scope.id = scope := by
  cases tier with
  | global =>
    obtain rfl := Option.some.inj hscope
    rfl
  | hub =>
    obtain ⟨hub, hhub, rfl⟩ := Option.map_eq_some_iff.1 hscope
    exact if_neg (h.currentHub?_ne_zero hhub)

theorem storeOutcome {c : Command} {args : String} {store : Store} (h : s.Sound)
    (ho : StoreOutcome s c args store) : store.Sound := by
  cases ho with
  | kept => exact h.store
  | assigned here trimmed nonempty assign =>
    refine h.store.assign assign ⟨by simpa using trimmed, ?_⟩ (h.ofId_scope here)
    simpa using nonempty
  | unassigned here clear => exact h.store.clear clear
  | opened reads named =>
    obtain ⟨hname, haddress⟩ := Opening.parse_spec reads
    exact (h.store.hubNamed? named hname).noteGiven (Store.hubNamed?_eq_some named).1 haddress
  | @connected _ hub address tab idle reads =>
    have hhub : s.currentHub? = some hub := by rw [currentHub?, tab]; rfl
    refine h.store.noteGiven (h.currentHub?_ne_zero hhub) ?_
    rintro a rfl
    exact wellFormed_of_readAddress reads

theorem tabsOutcome {c : Command} {args : String} {ts : Tabs} (h : s.Sound)
    (ho : TabsOutcome s c args ts) : ∀ t ∈ ts.all, t.hub? ≠ some 0 := by
  have focus : ∀ {t : Tab}, t.hub? ≠ some 0 → ∀ u ∈ (s.tabs.focus t).all, u.hub? ≠ some 0 := by
    intro t ht u hu
    rw [Tabs.all_focus, Tabs.mem_add] at hu
    exact hu.elim (h.tabs u) fun heq => heq ▸ ht
  cases ho with
  | kept => exact h.tabs
  | opened reads named =>
    exact focus fun hzero => (Store.hubNamed?_eq_some named).1 (Option.some.inj hzero)
  | approached here user =>
    exact focus fun hzero => h.currentHub?_ne_zero here (Option.some.inj hzero)
  | closedHub => exact fun t ht => h.tabs t (List.mem_of_mem_filter ht)
  | closedChat => exact fun t ht => h.tabs t (List.mem_of_mem_eraseIdx ht)

theorem dispatch (h : s.Sound) (line : String) : (s.dispatch line).Sound := by
  rcases dispatch_cases s line with ⟨-, heq⟩ | ⟨-, -, f, -, -, heq⟩ | ⟨c, args, hline, hout⟩
  · rw [heq]
    exact h
  · rw [heq]
    exact ⟨h.store, h.tabs⟩
  · exact ⟨h.storeOutcome hout.store, h.tabsOutcome hout.tabs⟩

theorem step (h : s.Sound) (e : Event) : (s.step e).Sound := by
  cases e with
  | act a =>
    cases a with
    | line line => exact h.dispatch line
    | autoconnect =>
      obtain ⟨tabs, link, log, heq, htabs⟩ := autoconnect_induction
        (P := fun ts => ∀ t ∈ ts.all, t.hub? ≠ some 0) h.tabs fun ts hub hmem hts t ht => by
          rcases Tabs.mem_add.1 ht with ht | rfl
          · exact hts t ht
          · exact fun hzero => Store.ne_zero_of_mem_hubIds hmem (Option.some.inj hzero)
      show s.autoconnect.Sound
      rw [heq]
      exact ⟨h.store, htabs⟩
    | next => exact ⟨h.store, h.tabs⟩
    | previous => exact ⟨h.store, h.tabs⟩
  | world => exact ⟨h.store, h.tabs⟩

end Sound

theorem sound_new (home : String) (link : Link) : (new (.empty home) link).Sound := by
  refine ⟨Store.sound_empty home, fun t ht => ?_⟩
  rw [List.mem_singleton.1 ht]
  simp [Tab.hub?]

theorem sound_after (home : String) (link : Link) (es : List Event) :
    ((new (.empty home) link).after es).Sound :=
  after_induction (sound_new home link) (fun _ e h => h.step e) es

/-- All that is ever stored in a run that starts without settings is valid. -/
theorem valid_after (home : String) (link : Link) (es : List Event) :
    ((new (.empty home) link).after es).store.Valid :=
  (after_induction (sound_new home link) (fun _ e h => h.step e) es).store.valid

end Session
end HubConsole
