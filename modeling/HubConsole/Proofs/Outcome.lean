import HubConsole.Proofs.Line
import HubConsole.Proofs.Result
import HubConsole.Proofs.Tabs

/-! # What commands make of a session

`Session.Outcome`: all that running a command can come to, with what is known of the session then.
Every run of a command is one of these (`outcome_run`), so is every line that names a command
(`dispatch_cases`); what holds of all lines is proved by cases on it. -/

namespace HubConsole
open Text Result

/-- Whether a command may do no more than show something. -/
def Command.shows : Command → Bool
  | whois | set _ | grant | help | version => true
  | _ => false

namespace Session

/-- What a command can make of the session `s`. -/
inductive Outcome (s : Session) : Command → String → Session → Prop
  | shown {c args} (shows : c.shows = true) (text : String) : Outcome s c args (s.info text)
  /-- The attempt fails. -/
  | refused {c args} (f : Failure) (fails : c.run s args = .error f) :
      Outcome s c args (s.error f.message)
  | cleared {args} : Outcome s .clear args { s with clearing := true }
  | quit {args} : Outcome s .quit args { s with quitting := true }
  | said {c args hub action} (chat : c = if action then .me else .say)
      (tab : s.tabs.current = .hub hub) (connected : s.link.isConnected hub = true) :
      Outcome s c args (s.request (.say hub args action))
  | told {c args hub uid nick action} (chat : c = if action then .me else .say)
      (tab : s.tabs.current = .chat hub uid nick) (connected : s.link.isConnected hub = true)
      (online : ∃ u ∈ s.link.users hub, u.uid = uid) :
      Outcome s c args (s.request (.tell hub uid args action))
  /-- A private chat is opened. -/
  | approached {args hub name u} (here : s.currentHub? = some hub)
      (user : s.link.findUser? hub name = some u) :
      Outcome s .msg args (s.focus (.chat hub u.uid u.name))
  | wrote {args hub name u message} (here : s.currentHub? = some hub)
      (user : s.link.findUser? hub name = some u) (connected : s.link.isConnected hub = true) :
      Outcome s .msg args ((s.focus (.chat hub u.uid u.name)).request (.tell hub u.uid message false))
  /-- A private chat is opened where nothing can be sent. -/
  | unsent {args hub name u} (here : s.currentHub? = some hub)
      (user : s.link.findUser? hub name = some u) (away : s.link.isConnected hub = false) :
      Outcome s .msg args
        ((s.focus (.chat hub u.uid u.name)).error Failure.notConnected.message)
  | opened {args o store hub} (reads : Opening.parse args = .ok o)
      (named : s.store.hubNamed? o.name = some (store, hub)) :
      Outcome s .openHub args ({ s with store }.enter hub o.address)
  /-- A hub is opened that cannot be connected now. -/
  | openedIdly {args o store hub} (reads : Opening.parse args = .ok o)
      (named : s.store.hubNamed? o.name = some (store, hub)) (text : String) :
      Outcome s .openHub args (({ s with store }.enter hub o.address).info text)
  | openedConnecting {args o store hub a} (reads : Opening.parse args = .ok o)
      (named : s.store.hubNamed? o.name = some (store, hub)) (idle : s.link.isIdle hub = true)
      (noted : ({ s with store }.enter hub o.address).store.notedAddress? hub = some a) :
      Outcome s .openHub args (({ s with store }.enter hub o.address).startConnect hub a)
  | connected {args hub address a} (tab : s.tabs.current = .hub hub)
      (idle : s.link.isIdle hub = true)
      (reads : readAddress (if args == "" then none else some args) = .ok address)
      (noted : (s.note hub address).store.notedAddress? hub = some a) :
      Outcome s .connect args ((s.note hub address).startConnect hub a)
  /-- There is no address although one may have been noted just now. -/
  | lost {args hub address} (tab : s.tabs.current = .hub hub)
      (idle : s.link.isIdle hub = true)
      (reads : readAddress (if args == "" then none else some args) = .ok address)
      (noted : (s.note hub address).store.notedAddress? hub = none) :
      Outcome s .connect args ((s.note hub address).error Failure.noAddress.message)
  | disconnected {args hub} (tab : s.tabs.current = .hub hub) (busy : s.link.isIdle hub = false)
      (text : String) : Outcome s .disconnect args ((s.request (.disconnect hub)).info text)
  | disconnectedAll {args} (tab : s.tabs.current = .main) (text : String) :
      Outcome s .disconnect args
        ((s.disconnectAll (s.tabs.hubs.filter fun hub => !s.link.isIdle hub)).info text)
  | reconnected {args hub a} (tab : s.tabs.current = .hub hub)
      (noted : s.store.notedAddress? hub = some a) : Outcome s .reconnect args (s.restart hub a)
  | reconnectedAll {args} (tab : s.tabs.current = .main)
      (some : (s.reconnectAll s.tabs.hubs).2 ≠ 0) :
      Outcome s .reconnect args (s.reconnectAll s.tabs.hubs).1
  /-- All open hubs have been gone through, and none has an address. -/
  | reconnectedNone {args} (tab : s.tabs.current = .main)
      (none : (s.reconnectAll s.tabs.hubs).2 = 0) :
      Outcome s .reconnect args ((s.reconnectAll s.tabs.hubs).1.error Failure.noOpenHub.message)
  | closedHub {args hub} (tab : s.tabs.current = .hub hub) :
      Outcome s .close args
        { s.hangUp hub with tabs := s.tabs.keep (s.tabs.all.filter fun t => t.hub? != some hub) }
  | closedChat {args hub uid nick} (tab : s.tabs.current = .chat hub uid nick) :
      Outcome s .close args
        { s with tabs := s.tabs.keep (s.tabs.all.eraseIdx s.tabs.position) }
  /-- The main tab stays open. -/
  | unclosed {args} (tab : s.tabs.current = .main) :
      Outcome s .close args (s.error Failure.mainTab.message)
  | kicked {args hub u} (tab : s.tabs.current = .hub hub)
      (connected : s.link.isConnected hub = true) (user : s.link.findUser? hub args = some u)
      (text : String) : Outcome s .kick args ((s.request (.kick hub u.uid)).info text)
  | answered {args hub} (tab : s.tabs.current = .hub hub) (busy : s.link.isIdle hub = false)
      (text : String) : Outcome s .password args ((s.request (.password hub args)).info text)
  | assigned {args tier scope store r} (here : s.scopeOf? tier = some scope)
      (value : trim (args.toList.dropWhile fun c => !isBlank c) ≠ [])
      (assign : s.store.assign scope (String.ofList (args.toList.takeWhile fun c => !isBlank c))
        (String.ofList (trim (args.toList.dropWhile fun c => !isBlank c))) = .ok (store, r))
      (text : String) : Outcome s (.set tier) args ({ s with store }.info text)
  | unassigned {args tier scope store r} (here : s.scopeOf? tier = some scope)
      (clear : s.store.clear scope args = .ok (store, r)) (text : String) :
      Outcome s (.unset tier) args ({ s with store }.info text)
  | searched {args query hubs} (reads : Query.parse args = .ok query)
      (found : s.searched query.scope = .ok hubs) (text : String) :
      Outcome s .search args ((s.request (.search hubs query)).info text)
  | granted {args hub u grants} (here : s.currentHub? = some hub)
      (user : s.link.findUser? hub args = some u)
      (add : s.grants.add? hub u.uid u.name = some grants) (text : String) :
      Outcome s .grant args ({ s with grants }.info text)
  | revoked {args grants g} (revoke : s.grants.revoke args = .ok (grants, g)) (text : String) :
      Outcome s .ungrant args ({ s with grants }.info text)

variable {s t : Session} {c : Command} {args : String}

@[simp] theorem ownHub_eq_ok_iff {hub : HubId} :
    s.ownHub = .ok hub ↔ s.tabs.current = .hub hub := by
  unfold ownHub
  split <;> simp_all

@[simp] theorem anyHub_eq_ok_iff {hub : HubId} : s.anyHub = .ok hub ↔ s.currentHub? = some hub := by
  unfold anyHub
  split <;> simp_all

@[simp] theorem checkConnected_eq_ok_iff {hub : HubId} {u : Unit} :
    s.checkConnected hub = .ok u ↔ s.link.isConnected hub = true := by
  unfold checkConnected
  split <;> simp_all

@[simp] theorem findUser_eq_ok_iff {hub : HubId} {name : String} {u : User} :
    s.findUser hub name = .ok u ↔ s.link.findUser? hub name = some u := by
  unfold findUser
  split <;> simp_all

@[simp] theorem scopeOf_eq_ok_iff {tier : Tier} {scope : Scope} :
    s.scopeOf tier = .ok scope ↔ s.scopeOf? tier = some scope := by
  unfold scopeOf
  split <;> simp_all

/-- The request that a message from the current tab comes to: over a connection, one to the hub of the
tab, or to the user of a private chat who is there. -/
inductive Reaches (s : Session) (message : String) (action : Bool) : Request → Prop
  | hub {hub} (tab : s.tabs.current = .hub hub) (connected : s.link.isConnected hub = true) :
      Reaches s message action (.say hub message action)
  | user {hub uid nick} (tab : s.tabs.current = .chat hub uid nick)
      (connected : s.link.isConnected hub = true) (online : ∃ u ∈ s.link.users hub, u.uid = uid) :
      Reaches s message action (.tell hub uid message action)

/-- A message is sent iff it is not blank and reaches someone. -/
theorem chat_eq_ok_iff {message : String} {action : Bool} : s.chat message action = .ok t ↔
    isBlankText message = false ∧ ∃ r, s.Reaches message action r ∧ t = s.request r := by
  constructor
  · intro h
    simp only [chat, ite_throw_bind_eq_ok_iff, Bool.not_eq_true] at h
    obtain ⟨hm, h⟩ := h
    refine ⟨hm, ?_⟩
    split at h
    · simp at h
    · next hub htab =>
      simp only [bind_eq_ok_iff, checkConnected_eq_ok_iff, pure_eq_ok_iff] at h
      obtain ⟨-, hconn, rfl⟩ := h
      exact ⟨_, .hub htab hconn, rfl⟩
    · next hub uid nick htab =>
      simp only [bind_eq_ok_iff, checkConnected_eq_ok_iff] at h
      obtain ⟨-, hconn, h⟩ := h
      split at h
      · next hany =>
        rw [pure_eq_ok_iff] at h
        exact ⟨_, .user htab hconn (by simpa using hany), h.symm⟩
      · simp at h
  · rintro ⟨hm, r, hr, rfl⟩
    unfold chat
    cases hr with
    | hub tab connected =>
      simp [hm, tab, checkConnected, connected]
    | user tab connected online =>
      simp [hm, tab, checkConnected, connected, online]

theorem Outcome.of_chat {action : Bool} (hc : c = if action then .me else .say)
    (h : s.chat args action = .ok t) : Outcome s c args t := by
  obtain ⟨-, r, hr, rfl⟩ := chat_eq_ok_iff.1 h
  cases hr with
  | hub tab connected => exact .said hc tab connected
  | user tab connected online => exact .told hc tab connected online

/-- A private chat that cannot be sent to is so for want of a connection: the user is there. -/
theorem chat_focus_eq_error {hub : HubId} {name message : String} {u : User} {f : Failure}
    (hu : s.link.findUser? hub name = some u) (hm : isBlankText message = false)
    (h : (s.focus (.chat hub u.uid u.name)).chat message false = .error f) :
    s.link.isConnected hub = false ∧ f = .notConnected := by
  cases hconn : s.link.isConnected hub with
  | false =>
    simp [chat, hm, checkConnected, focus, hconn, throw, throwThe, MonadExceptOf.throw, bind,
      Except.bind] at h
    exact ⟨rfl, h.symm⟩
  | true =>
    have htab : (s.focus (.chat hub u.uid u.name)).tabs.current = .chat hub u.uid u.name := by
      simp [focus]
    have hreaches : (s.focus (.chat hub u.uid u.name)).Reaches message false
        (.tell hub u.uid message false) := .user htab hconn ⟨u, List.mem_of_find?_eq_some hu, rfl⟩
    rw [chat_eq_ok_iff.2 ⟨hm, _, hreaches, rfl⟩] at h
    cases h

theorem Outcome.of_tell {name message : String} (h : s.tell name message = .ok t) :
    Outcome s .msg args t := by
  unfold tell at h
  simp only [bind_eq_ok_iff, anyHub_eq_ok_iff, ite_throw_bind_eq_ok_iff] at h
  obtain ⟨hub, hhere, -, h⟩ := h
  simp only [findUser_eq_ok_iff] at h
  obtain ⟨u, hu, h⟩ := h
  split at h
  · rw [pure_eq_ok_iff] at h
    exact h ▸ .approached hhere hu
  · next hm =>
    split at h
    · next r hr =>
      rw [pure_eq_ok_iff] at h
      obtain ⟨-, r, hreaches, rfl⟩ := chat_eq_ok_iff.1 hr
      cases hreaches with
      | hub htab => simp [focus] at htab
      | @user hub' uid nick htab hconn =>
        have htab' : hub = hub' ∧ u.uid = uid ∧ u.name = nick := by simpa [focus] using htab
        obtain ⟨rfl, rfl, rfl⟩ := htab'
        exact h ▸ .wrote hhere hu hconn
    · next f hf =>
      rw [pure_eq_ok_iff] at h
      obtain ⟨haway, rfl⟩ := chat_focus_eq_error hu (by simpa using hm) hf
      exact h ▸ .unsent hhere hu haway

theorem Outcome.of_openHub {o : Opening} (hread : Opening.parse args = .ok o)
    (h : s.openHub o = .ok t) : Outcome s .openHub args t := by
  unfold openHub at h
  split at h
  · simp at h
  · next store hub hnamed =>
    rw [pure_eq_ok_iff] at h
    subst h
    split
    · unfold connectOpened
      split
      · next hidle =>
        split
        · next a hnoted => exact .openedConnecting hread hnamed hidle hnoted
        · exact .openedIdly hread hnamed _
      · split
        · exact .openedIdly hread hnamed _
        · exact .opened hread hnamed
    · exact .opened hread hnamed

theorem Outcome.of_connect (h : s.connect args = .ok t) : Outcome s .connect args t := by
  unfold connect at h
  simp only [bind_eq_ok_iff, ownHub_eq_ok_iff, ite_throw_bind_eq_ok_iff] at h
  obtain ⟨hub, htab, hidle, address, hread, h⟩ := h
  have hidle' : s.link.isIdle hub = true := by simpa using hidle
  split at h
  · next a hnoted =>
    rw [pure_eq_ok_iff] at h
    exact h ▸ .connected htab hidle' hread hnoted
  · next hnoted =>
    rw [pure_eq_ok_iff] at h
    exact h ▸ .lost htab hidle' hread hnoted

theorem Outcome.of_disconnect (h : s.disconnect = .ok t) : Outcome s .disconnect args t := by
  unfold disconnect at h
  split at h
  · next htab =>
    dsimp only at h
    split at h
    · simp at h
    · rw [pure_eq_ok_iff] at h
      exact h ▸ .disconnectedAll htab _
  · next hub htab =>
    split at h
    · simp at h
    · next hbusy =>
      rw [pure_eq_ok_iff] at h
      exact h ▸ .disconnected htab (by simpa using hbusy) _
  · simp at h

theorem Outcome.of_reconnect (h : s.reconnect = .ok t) : Outcome s .reconnect args t := by
  unfold reconnect at h
  split at h
  · next htab =>
    rw [pure_eq_ok_iff] at h
    split at h
    · next hnone => exact h ▸ .reconnectedNone htab hnone
    · next hsome => exact h ▸ .reconnectedAll htab hsome
  · next hub htab =>
    split at h
    · next a hnoted =>
      rw [pure_eq_ok_iff] at h
      exact h ▸ .reconnected htab hnoted
    · simp at h
  · simp at h

theorem Outcome.close : Outcome s .close args s.close := by
  unfold Session.close
  cases htab : s.tabs.current with
  | main => simpa [Tabs.close?, htab] using .unclosed htab
  | hub hub =>
    have hclose : (s.hangUp hub).tabs = s.tabs := by
      unfold hangUp
      split <;> rfl
    simpa [Tabs.close?, htab, hclose] using .closedHub htab
  | chat hub uid nick => simpa [Tabs.close?, htab] using .closedChat htab

theorem Outcome.of_kick (h : s.kick args = .ok t) : Outcome s .kick args t := by
  unfold kick at h
  simp only [bind_eq_ok_iff, ownHub_eq_ok_iff, checkConnected_eq_ok_iff, ite_throw_bind_eq_ok_iff,
    findUser_eq_ok_iff, pure_eq_ok_iff] at h
  obtain ⟨hub, htab, -, hconn, -, u, hu, rfl⟩ := h
  exact .kicked htab hconn hu _

theorem Outcome.of_password (h : s.password args = .ok t) : Outcome s .password args t := by
  unfold password at h
  simp only [bind_eq_ok_iff, ownHub_eq_ok_iff, ite_throw_bind_eq_ok_iff, pure_eq_ok_iff] at h
  obtain ⟨hub, htab, -, hbusy, rfl⟩ := h
  exact .answered htab (by simpa using hbusy) _

theorem Outcome.of_whois (h : s.whois args = .ok t) : Outcome s .whois args t := by
  unfold whois at h
  simp only [bind_eq_ok_iff, anyHub_eq_ok_iff, findUser_eq_ok_iff, pure_eq_ok_iff] at h
  obtain ⟨hub, -, name, -, u, -, rfl⟩ := h
  exact .shown rfl _

theorem Outcome.of_showSettings {tier : Tier} {scope : Scope} {key : String}
    (h : s.showSettings tier scope key = .ok t) : Outcome s (.set tier) args t := by
  unfold showSettings at h
  split at h
  · split at h
    · split at h <;> simp at h
    · split at h
      · rw [pure_eq_ok_iff] at h
        exact h ▸ .shown rfl _
      · simp at h
  · rw [pure_eq_ok_iff] at h
    exact h ▸ .shown rfl _

theorem Outcome.of_set {tier : Tier} (h : s.set tier args = .ok t) :
    Outcome s (.set tier) args t := by
  unfold set at h
  simp only [bind_eq_ok_iff, scopeOf_eq_ok_iff] at h
  obtain ⟨scope, hhere, h⟩ := h
  split at h
  · exact .of_showSettings h
  · next hvalue =>
    split at h
    · next store r hassign =>
      rw [pure_eq_ok_iff] at h
      exact h ▸ .assigned hhere (by simpa using hvalue) hassign _
    · simp at h

theorem Outcome.of_unset {tier : Tier} (h : s.unset tier args = .ok t) :
    Outcome s (.unset tier) args t := by
  unfold unset at h
  simp only [bind_eq_ok_iff, scopeOf_eq_ok_iff, ite_throw_bind_eq_ok_iff] at h
  obtain ⟨scope, hhere, -, h⟩ := h
  split at h
  · next store hclear =>
    rw [pure_eq_ok_iff] at h
    exact h ▸ .unassigned hhere hclear _
  · next store r hclear =>
    rw [pure_eq_ok_iff] at h
    exact h ▸ .unassigned hhere hclear _
  · simp at h

theorem Outcome.of_search (h : s.search args = .ok t) : Outcome s .search args t := by
  unfold search at h
  split at h
  · simp at h
  · next query hread =>
    simp only [bind_eq_ok_iff, pure_eq_ok_iff] at h
    obtain ⟨hubs, hfound, rfl⟩ := h
    exact .searched hread hfound _

theorem Outcome.of_grant (h : s.grant args = .ok t) : Outcome s .grant args t := by
  unfold grant at h
  split at h
  · rw [pure_eq_ok_iff] at h
    subst h
    unfold listGrants
    split <;> exact .shown rfl _
  · simp only [bind_eq_ok_iff, anyHub_eq_ok_iff, findUser_eq_ok_iff] at h
    obtain ⟨hub, hhere, u, hu, h⟩ := h
    split at h
    · next grants hadd =>
      rw [pure_eq_ok_iff] at h
      exact h ▸ .granted hhere hu hadd _
    · rw [pure_eq_ok_iff] at h
      exact h ▸ .shown rfl _

theorem Outcome.of_ungrant (h : s.ungrant args = .ok t) : Outcome s .ungrant args t := by
  unfold ungrant at h
  simp only [ite_throw_bind_eq_ok_iff] at h
  obtain ⟨-, h⟩ := h
  split at h
  · next grants g hrevoke =>
    rw [pure_eq_ok_iff] at h
    exact h ▸ .revoked hrevoke _
  · simp at h

theorem Outcome.of_help (h : Command.helpOn s args = .ok t) : Outcome s .help args t := by
  unfold Command.helpOn at h
  split at h
  · exact pure_eq_ok_iff.1 h ▸ .shown rfl _
  · dsimp only at h
    split at h
    · unfold Command.helpOnKeys at h
      split at h
      · exact pure_eq_ok_iff.1 h ▸ .shown rfl _
      · split at h
        · exact pure_eq_ok_iff.1 h ▸ .shown rfl _
        · simp at h
    · split at h
      · unfold Command.helpOnSetting at h
        split at h
        · exact pure_eq_ok_iff.1 h ▸ .shown rfl _
        · simp at h
      · unfold Command.helpOnCommand at h
        dsimp only at h
        split at h
        · exact pure_eq_ok_iff.1 h ▸ .shown rfl _
        · simp at h

theorem Outcome.of_run (h : c.run s args = .ok t) : Outcome s c args t := by
  cases c with
  | say => exact .of_chat rfl h
  | me => exact .of_chat rfl h
  | msg => exact .of_tell h
  | openHub =>
    obtain ⟨o, hread, h⟩ := bind_eq_ok_iff.1 h
    exact .of_openHub hread h
  | connect => exact .of_connect h
  | disconnect =>
    obtain ⟨-, -, h⟩ := bind_eq_ok_iff.1 h
    exact .of_disconnect h
  | reconnect =>
    obtain ⟨-, -, h⟩ := bind_eq_ok_iff.1 h
    exact .of_reconnect h
  | close =>
    obtain ⟨-, -, h⟩ := bind_eq_ok_iff.1 h
    exact pure_eq_ok_iff.1 h ▸ .close
  | kick => exact .of_kick h
  | whois => exact .of_whois h
  | password => exact .of_password h
  | set tier => exact .of_set h
  | unset tier => exact .of_unset h
  | search => exact .of_search h
  | grant => exact .of_grant h
  | ungrant => exact .of_ungrant h
  | help => exact .of_help h
  | clear =>
    obtain ⟨-, -, h⟩ := bind_eq_ok_iff.1 h
    exact pure_eq_ok_iff.1 h ▸ .cleared
  | quit =>
    obtain ⟨-, -, h⟩ := bind_eq_ok_iff.1 h
    exact pure_eq_ok_iff.1 h ▸ .quit
  | version =>
    obtain ⟨-, -, h⟩ := bind_eq_ok_iff.1 h
    exact pure_eq_ok_iff.1 h ▸ .shown rfl _

theorem outcome_run : Outcome s c args (s.settle (c.run s args)) := by
  cases h : c.run s args with
  | error f => exact .refused f h
  | ok t => exact .of_run h

/-- All that a line can do: a blank one nothing, an unknown name is refused, and a command comes to
one of its outcomes. -/
theorem dispatch_cases (s : Session) (line : String) :
    (Command.Line.parse? line = none ∧ s.dispatch line = s) ∨
    (∃ name args f, Command.Line.parse? line = some ⟨name, args⟩ ∧
      Command.ofName? name = none ∧ s.dispatch line = s.error (Failure.message f)) ∨
    ∃ c args, Command.Line.parse? line = some ⟨c.name, args⟩ ∧ Outcome s c args (s.dispatch line) := by
  unfold dispatch
  cases hline : Command.Line.parse? line with
  | none => exact .inl ⟨rfl, rfl⟩
  | some l =>
    right
    dsimp only
    unfold call
    cases hc : Command.ofName? l.name with
    | none => exact .inl ⟨l.name, l.args, .unknownCommand l.name _, rfl, hc, rfl⟩
    | some c =>
      have hname : c.name = l.name := Command.ofName?_eq_some_iff.1 hc
      exact .inr ⟨c, l.args, by rw [hname], outcome_run⟩

theorem outcome_dispatch {line : String} (h : Command.Line.parse? line = some ⟨c.name, args⟩) :
    Outcome s c args (s.dispatch line) := by
  rw [dispatch_of_parse? h]
  exact outcome_run

end Session
end HubConsole
