import HubConsole.Proofs.Failure
import HubConsole.Proofs.Identity

/-! # Opening hubs

What `open` makes of a session (`Opens`). A line that has opened a hub changes no settings and no
tabs when it is given once more (`open_idempotent`): the name now leads to the hub, whose tab is the
current one and whose address is the one noted. So nothing is left to do but to connect, and that is
asked for only while the hub is idle. -/

namespace HubConsole.Session
open Text Setting Result Store

variable {s t u : Session} {o : Opening} {store : Store} {hub : HubId} {a? : Option Address}
  {args line : String}

/-- From `s` to `t` the hub is opened, whose name has been looked up or stored in `store`. -/
structure Opens (s : Session) (o : Opening) (store : Store) (hub : HubId) (t : Session) : Prop where
  store : t.store = store.noteGiven hub o.address
  tabs : t.tabs = s.tabs.focus (.hub hub)
  informs : Informs s t
  /-- A connection is requested only if that is asked for, and only while there is none. -/
  link : o.connects = false ∨ s.link.isIdle hub = false → t.link = s.link

/-! ## One line -/

theorem link_connectOpened (busy : s.link.isIdle hub = false) :
    (s.connectOpened hub a?).link = s.link := by
  unfold connectOpened
  rw [busy, if_neg Bool.false_ne_true]
  split
  · rfl
  · rfl

/-- A hub whose name has an id is opened. -/
theorem exists_opens_openHub (named : s.store.hubNamed? o.name = some (store, hub)) :
    ∃ t, s.openHub o = .ok t ∧ Opens s o store hub t := by
  have hentered : Informs s ({ s with store }.enter hub o.address) := .of_log rfl
  unfold openHub
  rw [named]
  refine ⟨_, rfl, ?_⟩
  cases hconnects : o.connects with
  | false => exact ⟨rfl, rfl, hentered, fun _ => rfl⟩
  | true =>
    obtain ⟨link, log, heq⟩ := connectOpened_eq ({ s with store }.enter hub o.address) hub o.address
    refine ⟨?_, ?_, hentered.trans (.connectOpened _ hub o.address), ?_⟩
    · rw [if_pos rfl, heq]
      rfl
    · rw [if_pos rfl, heq]
      rfl
    · rintro (hnot | hbusy)
      · exact absurd (hconnects.symm.trans hnot) (by decide)
      · exact link_connectOpened hbusy

theorem opens_dispatch (reads : Command.Line.parse? line = some ⟨"open", args⟩)
    (opening : Opening.parse args = .ok o)
    (named : s.store.hubNamed? o.name = some (store, hub)) :
    Opens s o store hub (s.dispatch line) := by
  obtain ⟨t, ht, hopens⟩ := exists_opens_openHub named
  have hrun : Command.openHub.run s args = .ok t := bind_eq_ok_iff.2 ⟨o, opening, ht⟩
  rw [dispatch_of_parse? (c := .openHub) reads, hrun]
  exact hopens

/-- What does not fail opens a hub. -/
theorem exists_opens_dispatch (reads : Command.Line.parse? line = some ⟨"open", args⟩)
    (accepted : Informs s (s.dispatch line)) : ∃ o store hub, Opening.parse args = .ok o ∧
      s.store.hubNamed? o.name = some (store, hub) ∧ Opens s o store hub (s.dispatch line) := by
  have hdispatch : s.dispatch line = s.settle (Command.openHub.run s args) :=
    dispatch_of_parse? (c := .openHub) reads
  cases hrun : Command.openHub.run s args with
  | error f =>
    rw [hdispatch, hrun] at accepted
    exact absurd accepted (Informs.not_error s f.message)
  | ok t =>
    obtain ⟨o, opening, hopen⟩ := bind_eq_ok_iff.1 hrun
    cases hnamed : s.store.hubNamed? o.name with
    | none =>
      unfold openHub at hopen
      rw [hnamed] at hopen
      exact absurd hopen throw_ne_ok
    | some p => exact ⟨o, p.1, p.2, opening, hnamed, opens_dispatch reads opening hnamed⟩

/-! ## The same line again -/

namespace Opens

/-- The hub that was opened has the name. -/
theorem get? (h : Opens s o store hub t) (named : s.store.hubNamed? o.name = some (store, hub)) :
    t.store.get? hub hubName = some o.name := by
  rw [h.store, get?_noteGiven_hubName]
  exact get?_of_hubNamed? named

theorem current (h : Opens s o store hub t) : t.tabs.current = .hub hub := by
  rw [h.tabs, Tabs.current_focus]

/-- What was opened is opened again. -/
theorem again (h : Opens s o store hub t) (k : Opens t o t.store hub u) :
    u.store = t.store ∧ u.tabs = t.tabs := by
  constructor
  · rw [k.store, h.store, noteGiven_noteGiven]
  · rw [k.tabs, h.tabs, Tabs.focus_focus]

end Opens

/-- All through a run that starts without settings, a line that has opened a hub without an error
leaves little to do when it is given once more: settings and tabs stay as they are, no error is
reported, and nothing is requested unless the hub is idle and `-n` is not given. -/
theorem open_idempotent {home : String} {link : Link} {es : List Event}
    (reads : Command.Line.parse? line = some ⟨"open", args⟩)
    (accepted : Informs ((new (.empty home) link).after es)
      (((new (.empty home) link).after es).dispatch line)) :
    let t := ((new (.empty home) link).after es).dispatch line
    let u := t.dispatch line
    u.store = t.store ∧ u.tabs = t.tabs ∧ Informs t u ∧ ∃ hub, t.tabs.current = .hub hub ∧
      ((words args.toList).head? = some "-n".toList ∨ t.link.isIdle hub = false →
        u.link = t.link) := by
  intro t u
  obtain ⟨o, store, hub, hparse, hnamed, hopens⟩ := exists_opens_dispatch reads accepted
  have hidentified : t.Identified := (identified_after home link es).dispatch line
  have hagain : Opens t o t.store hub u := opens_dispatch reads hparse
    (hidentified.names.hubNamed? (hubNamed?_eq_some hnamed).1 (hopens.get? hnamed))
  obtain ⟨hstore, htabs⟩ := hopens.again hagain
  refine ⟨hstore, htabs, hagain.informs, hub, hopens.current, ?_⟩
  rw [← (Opening.of_parse hparse).1]
  exact hagain.link

/-- A hub that is being connected is opened again, with its address. -/
theorem open_idempotent_connecting :
    let line := "/open home adc://h:1/"
    let s := (new (.empty "/") .offline).after [.act (.line "/open -n home")]
    let t := s.dispatch line
    Command.Line.parse? line = some ⟨"open", "home adc://h:1/"⟩ ∧ Informs s t ∧
      t.link.requests = [.connect 1 ⟨.adc, "h", 1, none⟩] ∧ t.link.isIdle 1 = false ∧
      (t.dispatch line).store = t.store ∧ (t.dispatch line).tabs = t.tabs ∧
      (t.dispatch line).link = t.link := by
  intro line s t
  have hreads : Command.Line.parse? line = some ⟨"open", "home adc://h:1/"⟩ := by decide
  have hinforms : Informs s t :=
    ⟨[⟨.info, "Connecting to adc://h:1/..."⟩], by decide +kernel, by decide⟩
  have hrequests : t.link.requests = [.connect 1 ⟨.adc, "h", 1, none⟩] := by decide +kernel
  have hbusy : t.link.isIdle 1 = false := by decide +kernel
  have hcurrent : t.tabs.current = .hub 1 := by decide +kernel
  obtain ⟨hstore, htabs, -, hub, hhub, hlink⟩ := open_idempotent hreads hinforms
  obtain rfl : hub = 1 := Tab.hub.inj (hhub.symm.trans hcurrent)
  exact ⟨hreads, hinforms, hrequests, hbusy, hstore, htabs, hlink (.inr hbusy)⟩

end HubConsole.Session
