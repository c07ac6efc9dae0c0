import HubConsole.Proofs.Identity
import HubConsole.Proofs.Stored

/-! # What a line changes in the settings

`Store.SameBut`: two stores have the same entries, but for some names under one id. `Session.Reach`
says which id and which names these may be for each command that stores anything: one setting that
the user can see, in the scope of the command, or the notes on one hub. No line goes beyond that
(`changes_isolated`). -/

namespace HubConsole
open Setting

namespace Store
variable {s t u : Store} {hub id : HubId} {scope : Scope} {name raw value : String}
  {names : List String} {r : Resolved} {a : Address} {a? : Option Address}

/-- The stores have the same entries, but for these names under this id. -/
def SameBut (s t : Store) (id : HubId) (names : List String) : Prop :=
  ∀ e : Entry, e.scope ≠ id ∨ e.name ∉ names → (e ∈ t.entries ↔ e ∈ s.entries)

namespace SameBut

theorem of_get? (h : ∀ k n, k ≠ id ∨ n ∉ names → t.get? k n = s.get? k n) :
    s.SameBut t id names := by
  intro e he
  rw [mem_entries_iff, mem_entries_iff, h e.scope e.name he]

theorem refl (s : Store) : s.SameBut s id names := fun _ _ => Iff.rfl

theorem trans (h : s.SameBut t id names) (k : t.SameBut u id names) : s.SameBut u id names :=
  fun e he => (k e he).trans (h e he)

/-- A name outside of those that may differ has the same value. -/
theorem get? (h : s.SameBut t id names) (hname : name ∉ names) :
    t.get? hub name = s.get? hub name :=
  Option.ext fun value => by
    have he := h ⟨hub, name, value⟩ (.inr hname)
    rwa [mem_entries_iff, mem_entries_iff] at he

theorem set (hname : name ∈ names) : s.SameBut (s.set id name value) id names := by
  refine of_get? fun k n hne => ?_
  rw [get?_set, if_neg]
  rintro ⟨rfl, rfl⟩
  exact hne.elim (fun h => h rfl) fun h => h hname

theorem erase (hname : name ∈ names) : s.SameBut (s.erase id name) id names := by
  refine of_get? fun k n hne => ?_
  rw [get?_erase, if_neg]
  rintro ⟨rfl, rfl⟩
  exact hne.elim (fun h => h rfl) fun h => h hname

theorem assign (h : s.assign scope name raw = .ok (t, r)) :
    ∃ d ∈ visible, s.SameBut t scope.id [d.name] := by
  obtain ⟨d, v, hd, -, -, -, rfl, -⟩ := assign_eq_ok_iff.1 h
  exact ⟨d, (definition_eq_ok_iff.1 hd).2, set List.mem_cons_self⟩

theorem clear (h : s.clear scope name = .ok (t, r)) :
    ∃ d ∈ visible, s.SameBut t scope.id [d.name] := by
  obtain ⟨d, hd, -, rfl, -⟩ := clear_eq_ok_iff.1 h
  exact ⟨d, (definition_eq_ok_iff.1 hd).2, erase List.mem_cons_self⟩

theorem hubNamed? (h : s.hubNamed? name = some (t, hub)) : s.SameBut t hub noteNames := by
  obtain ⟨-, rfl | rfl⟩ := hubNamed?_eq_some h
  · exact refl _
  · exact set (by simp [noteNames])

theorem noteGiven : s.SameBut (s.noteGiven hub a?) hub noteNames :=
  of_get? fun _ _ hne => get?_noteGiven (hne.imp id ne_of_not_mem_noteNames)

end SameBut
end Store

namespace Session
open Store
variable {s : Session} {c : Command} {args : String} {store : Store} {id : HubId}
  {names : List String} {tier : Tier}

/-- Where a command changes the settings, if it does: the id and the names of the values that it may
store or remove there. `t` holds the settings afterwards. -/
inductive Reach (s : Session) (t : Store) : Command → String → HubId → List String → Prop
  | global {c args d} (sets : c = .set .global ∨ c = .unset .global) (visible : d ∈ visible) :
      Reach s t c args 0 [d.name]
  | hub {c args d hub} (sets : c = .set .hub ∨ c = .unset .hub) (visible : d ∈ visible)
      (here : s.currentHub? = some hub) (ne : hub ≠ 0) : Reach s t c args hub [d.name]
  | connected {args hub} (tab : s.tabs.current = .hub hub) (ne : hub ≠ 0) :
      Reach s t .connect args hub noteNames
  | opened {args o hub} (reads : Opening.parse args = .ok o) (ne : hub ≠ 0)
      (named : t.get? hub hubName = some o.name) : Reach s t .openHub args hub noteNames

/-- A command that sets settings reaches one of those that the user can see, in its own scope. -/
theorem Reach.of_scope {t : Store} {scope : Scope} {d : Definition} (h : s.Sound)
    (sets : c = .set tier ∨ c = .unset tier) (here : s.scopeOf? tier = some scope)
    (hd : d ∈ visible) : Reach s t c args scope.id [d.name] := by
  cases tier with
  | global =>
    obtain rfl := Option.some.inj here
    exact .global sets hd
  | hub =>
    obtain ⟨hub, hhub, rfl⟩ := Option.map_eq_some_iff.1 here
    exact .hub sets hd hhub (h.currentHub?_ne_zero hhub)

/-- The notes on hubs are out of reach of the commands that set settings. -/
theorem Reach.note_not_mem {t : Store} {note : String} (h : Reach s t c args id names)
    (sets : c = .set tier ∨ c = .unset tier) (hnote : note ∈ noteNames) : note ∉ names := by
  have hne : ∀ d ∈ visible, note ∉ [d.name] := fun d hd hmem =>
    visible_name_ne hd hnote (List.mem_singleton.1 hmem).symm
  cases h with
  | global _ hd => exact hne _ hd
  | hub _ hd => exact hne _ hd
  | connected | opened => rcases sets with sets | sets <;> cases sets

theorem StoreOutcome.reach (h : s.Sound) (ho : StoreOutcome s c args store) :
    store = s.store ∨
      ∃ id names, Reach s store c args id names ∧ s.store.SameBut store id names := by
  cases ho with
  | kept => exact .inl rfl
  | assigned here trimmed nonempty assign =>
    obtain ⟨d, hd, hsame⟩ := SameBut.assign assign
    exact .inr ⟨_, _, .of_scope h (.inl rfl) here hd, hsame⟩
  | unassigned here clear =>
    obtain ⟨d, hd, hsame⟩ := SameBut.clear clear
    exact .inr ⟨_, _, .of_scope h (.inr rfl) here hd, hsame⟩
  | @opened _ o store hub reads named =>
    have hname : (store.noteGiven hub o.address).get? hub hubName = some o.name := by
      rw [get?_noteGiven_hubName, get?_of_hubNamed? named]
    exact .inr ⟨_, _, .opened reads (hubNamed?_eq_some named).1 hname,
      (SameBut.hubNamed? named).trans .noteGiven⟩
  | @connected _ hub address tab =>
    have hhub : s.currentHub? = some hub := by rw [currentHub?, tab]; rfl
    exact .inr ⟨_, _, .connected tab (h.currentHub?_ne_zero hhub), .noteGiven⟩

theorem reach_dispatch (h : s.Sound) (line : String) :
    (s.dispatch line).store = s.store ∨
    ∃ c args id names, Command.Line.parse? line = some ⟨c.name, args⟩ ∧
      Reach s (s.dispatch line).store c args id names ∧
      s.store.SameBut (s.dispatch line).store id names := by
  rcases dispatch_cases s line with ⟨-, heq⟩ | ⟨-, -, f, -, -, heq⟩ | ⟨c, args, hline, ho⟩
  · exact .inl (by rw [heq])
  · exact .inl (by rw [heq, store_error])
  · refine (ho.store.reach h).imp_right ?_
    rintro ⟨id, names, hreach, hsame⟩
    exact ⟨c, args, id, names, hline, hreach, hsame⟩

/-- In a run that starts without settings, a line leaves the settings as they are, or it has a
command that changes them within its reach. The commands that set settings leave all notes on hubs
as they are. -/
theorem changes_isolated (home : String) (link : Link) (es : List Event) (line : String) :
    let s := (new (.empty home) link).after es
    let t := (s.dispatch line).store
    (t = s.store ∨ ∃ c args id names, Command.Line.parse? line = some ⟨c.name, args⟩ ∧
      Reach s t c args id names ∧ s.store.SameBut t id names) ∧
    ∀ (c : Command) (args : String) (tier : Tier),
      Command.Line.parse? line = some ⟨c.name, args⟩ → (c = .set tier ∨ c = .unset tier) →
      ∀ hub, ∀ note ∈ noteNames, t.get? hub note = s.store.get? hub note := by
  intro s t
  have hsound : s.Sound := after_induction (sound_new home link) (fun _ e h => h.step e) es
  have hreach := reach_dispatch hsound line
  refine ⟨hreach, fun c args tier hline sets hub note hnote => ?_⟩
  rcases hreach with heq | ⟨c', args', id, names, hline', hreach, hsame⟩
  · exact congrArg (Store.get? · hub note) heq
  · have hname : c'.name = c.name := congrArg Command.Line.name
      (Option.some.inj (hline'.symm.trans hline))
    have hc : c' = c := by
      have hof := Command.ofName?_name c'
      rw [hname, Command.ofName?_name] at hof
      exact (Option.some.inj hof).symm
    exact hsame.get? (hreach.note_not_mem (hc ▸ sets) hnote)

end Session
end HubConsole
