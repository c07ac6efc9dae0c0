import HubConsole.Proofs.AddressText
import HubConsole.Proofs.Run
import HubConsole.Proofs.Trim

/-! # What commands do to settings and tabs

The outcomes of commands, looked at for the settings only (`StoreOutcome`) and for the tabs only
(`TabsOutcome`). -/

namespace HubConsole.Session
open Text Result

/-- What a command can make of the settings. -/
inductive StoreOutcome (s : Session) : Command → String → Store → Prop
  /-- A hub is opened or connected only by an attempt that fails, if at all. -/
  | kept {c args} (idle : (c ≠ .openHub ∧ c ≠ .connect) ∨ ∃ f, c.run s args = .error f) :
      StoreOutcome s c args s.store
  | assigned {tier args scope key value store r} (here : s.scopeOf? tier = some scope)
      (trimmed : trim value = value) (nonempty : value ≠ [])
      (assign : s.store.assign scope key (String.ofList value) = .ok (store, r)) :
      StoreOutcome s (.set tier) args store
  | unassigned {tier args scope store r} (here : s.scopeOf? tier = some scope)
      (clear : s.store.clear scope args = .ok (store, r)) : StoreOutcome s (.unset tier) args store
  | opened {args o store hub} (reads : Opening.parse args = .ok o)
      (named : s.store.hubNamed? o.name = some (store, hub)) :
      StoreOutcome s .openHub args (store.noteGiven hub o.address)
  | connected {args hub address} (tab : s.tabs.current = .hub hub)
      (idle : s.link.isIdle hub = true)
      (reads : readAddress (if args == "" then none else some args) = .ok address) :
      StoreOutcome s .connect args (s.store.noteGiven hub address)

/-- What a command can make of the tabs. -/
inductive TabsOutcome (s : Session) : Command → String → Tabs → Prop
  | kept {c args} : TabsOutcome s c args s.tabs
  | opened {args o store hub} (reads : Opening.parse args = .ok o)
      (named : s.store.hubNamed? o.name = some (store, hub)) :
      TabsOutcome s .openHub args (s.tabs.focus (.hub hub))
  | approached {args hub name u} (here : s.currentHub? = some hub)
      (user : s.link.findUser? hub name = some u) :
      TabsOutcome s .msg args (s.tabs.focus (.chat hub u.uid u.name))
  | closedHub {args hub} (tab : s.tabs.current = .hub hub) :
      TabsOutcome s .close args (s.tabs.keep (s.tabs.all.filter fun t => t.hub? != some hub))
  | closedChat {args hub uid nick} (tab : s.tabs.current = .chat hub uid nick) :
      TabsOutcome s .close args (s.tabs.keep (s.tabs.all.eraseIdx s.tabs.position))

variable {s t : Session} {c : Command} {args : String}

theorem wellFormed_of_readAddress {text? : Option String} {a : Address}
    (h : readAddress text? = .ok (some a)) : a.WellFormed := by
  unfold readAddress at h
  split at h
  · simp at h
  · split at h
    · next b hparse =>
      have hb : b = a := by simpa using h
      exact Address.wellFormed_of_parse (hb ▸ hparse)
    · simp at h

/-- What has been read as an opening: whether a connection is wanted, a name, and an address. -/
theorem Opening.of_parse {o : Opening} (h : Opening.parse args = .ok o) :
    (o.connects = false ↔ (words args.toList).head? = some "-n".toList) ∧
      isHubName o.name = true ∧ ∃ text?, readAddress text? = .ok o.address := by
  have hoption : (((words args.toList).map String.ofList).head? != some "-n") = false ↔
      (words args.toList).head? = some "-n".toList := by
    rw [bne_eq_false_iff_eq, List.head?_map, Option.map_eq_some_iff]
    constructor
    · rintro ⟨w, hw, hname⟩
      rw [hw, ← hname, String.toList_ofList]
    · exact fun hw => ⟨_, hw, rfl⟩
  unfold Opening.parse at h
  dsimp only at h
  split at h
  case h_1 | h_4 => simp at h
  all_goals
    simp only [bind_eq_ok_iff, pure_eq_ok_iff, exists_eq_left', ite_throw_bind_eq_ok_iff] at h
    obtain ⟨hname, address, hread, rfl⟩ := h
    exact ⟨hoption, by simpa using hname, _, hread⟩

theorem Opening.parse_spec {o : Opening} (h : Opening.parse args = .ok o) :
    isHubName o.name = true ∧ ∀ a ∈ o.address, a.WellFormed := by
  obtain ⟨-, hname, text?, hread⟩ := of_parse h
  refine ⟨hname, fun a ha => ?_⟩
  rw [Option.mem_def.1 ha] at hread
  exact wellFormed_of_readAddress hread

theorem Outcome.store (h : Outcome s c args t) : StoreOutcome s c args t.store := by
  cases h with
  | shown shows => exact .kept (.inl (by constructor <;> rintro rfl <;> cases shows))
  | refused f fails => exact .kept (.inr ⟨f, fails⟩)
  | said chat | told chat =>
    refine .kept (.inl ?_)
    subst chat
    split <;> decide
  | cleared | quit | approached | wrote | unsent | disconnected | closedChat | kicked | answered
  | searched | granted | revoked | unclosed => exact .kept (.inl (by decide))
  | reconnectedNone => exact store_reconnectAll (s := s) ▸ .kept (.inl (by decide))
  | reconnectedAll => exact store_reconnectAll (s := s) ▸ .kept (.inl (by decide))
  | opened reads named | openedIdly reads named | openedConnecting reads named =>
    exact .opened reads named
  | connected tab idle reads | lost tab idle reads => exact .connected tab idle reads
  | disconnectedAll => exact store_disconnectAll (s := s) ▸ .kept (.inl (by decide))
  | reconnected => exact store_restart (s := s) ▸ .kept (.inl (by decide))
  | @closedHub _ hub =>
    obtain ⟨link, heq⟩ := hangUp_eq s hub
    rw [heq]
    exact .kept (.inl (by decide))
  | assigned here value assign => exact .assigned here (trim_trim _) value assign
  | unassigned here clear => exact .unassigned here clear

/-- An event leaves the settings as they are, or it is a line with a command. -/
theorem storeOutcome_step (s : Session) (e : Event) :
    (s.step e).store = s.store ∨ ∃ c args, StoreOutcome s c args (s.step e).store := by
  cases e with
  | act a =>
    cases a with
    | line line =>
      rcases dispatch_cases s line with ⟨-, heq⟩ | ⟨-, -, f, -, -, heq⟩ | ⟨c, args, -, ho⟩
      · exact .inl (congrArg store heq)
      · exact .inl ((congrArg store heq).trans store_error)
      · exact .inr ⟨c, args, ho.store⟩
    | autoconnect => exact .inl store_autoconnect
    | next => exact .inl rfl
    | previous => exact .inl rfl
  | world => exact .inl rfl

theorem TabsOutcome.of_eq {ts : Tabs} (h : ts = s.tabs) : TabsOutcome s c args ts := h ▸ .kept

theorem Outcome.tabs (h : Outcome s c args t) : TabsOutcome s c args t.tabs := by
  cases h with
  | opened reads named | openedIdly reads named | openedConnecting reads named =>
    exact .opened reads named
  | approached here user | wrote here user | unsent here user => exact .approached here user
  | closedHub tab => exact .closedHub tab
  | closedChat tab => exact .closedChat tab
  | reconnectedNone | reconnectedAll => exact .of_eq tabs_reconnectAll
  | disconnectedAll => exact .of_eq tabs_disconnectAll
  | reconnected => exact .of_eq tabs_restart
  | _ => exact .kept

/-- The tabs after a line are those before it, or what a command has made of them. -/
theorem tabs_dispatch (s : Session) (line : String) :
    (s.dispatch line).tabs = s.tabs ∨ ∃ c args, Command.Line.parse? line = some ⟨c.name, args⟩ ∧
      TabsOutcome s c args (s.dispatch line).tabs := by
  rcases dispatch_cases s line with ⟨-, h⟩ | ⟨-, -, f, -, -, h⟩ | ⟨c, args, hline, h⟩
  · exact .inl (by rw [h])
  · exact .inl (by rw [h]; rfl)
  · exact .inr ⟨c, args, hline, h.tabs⟩

end HubConsole.Session
