import HubConsole.Proofs.Run
import HubConsole.Proofs.Takes

/-! # The other side of a private chat

A private chat keeps the id of a user and the nick that the user had when the chat was opened.
Messages go to the id, but `whois` looks up the nick: it shows the first user who has it now
(`whois_names_nick`). That is someone else once the nick has been given up and taken over
(`not_whois_uid`). -/

namespace HubConsole

/-- The user is the first one of this name. -/
def FirstNamed (users : List User) (name : String) (u : User) : Prop :=
  ∃ before after, users = before ++ u :: after ∧ u.name = name ∧ ∀ v ∈ before, v.name ≠ name

namespace Link
variable {l : Link} {hub : HubId} {name : String} {u : User}

theorem findUser?_eq_some_iff :
    l.findUser? hub name = some u ↔ FirstNamed (l.users hub) name u := by
  unfold findUser? FirstNamed
  rw [List.find?_eq_some_iff_append]
  simp only [beq_iff_eq, Bool.not_eq_true', beq_eq_false_iff_ne]
  constructor
  · rintro ⟨hname, before, after, husers, hbefore⟩
    exact ⟨before, after, husers, hname, hbefore⟩
  · rintro ⟨before, after, husers, hname, hbefore⟩
    exact ⟨hname, before, after, husers, hbefore⟩

theorem findUser?_eq_none_iff :
    l.findUser? hub name = none ↔ ∀ u ∈ l.users hub, u.name ≠ name := by
  simp [findUser?, List.find?_eq_none]

end Link

namespace Session
open Text Result

variable {s : Session} {hub : HubId} {uid : UserId} {nick m line : String} {u : User}
  {r r' : Request}

/-- Lines that tell the name and the id of a user. -/
structure Portrays (u : User) (lines : List String) : Prop where
  name : "User:        " ++ u.name ∈ lines
  id : "Id:          " ++ idText u.uid ∈ lines

theorem portrays_portrait (u : User) : Portrays u (portrait u) := by
  obtain ⟨rest, hlines⟩ : ∃ rest, portrait u =
      ("User:        " ++ u.name) :: ("Id:          " ++ idText u.uid) :: rest := ⟨_, rfl⟩
  rw [hlines]
  exact ⟨List.mem_cons_self, List.mem_cons_of_mem _ List.mem_cons_self⟩

theorem request_inj : s.request r = s.request r' ↔ r = r' := by
  constructor
  · intro h
    have hrequests := congrArg (fun t : Session => t.link.requests) h
    simpa [request] using hrequests
  · rintro rfl
    rfl

theorem error_ne_request {text : String} : s.error text ≠ s.request r := by
  intro h
  have hlog := congrArg Session.log h
  simp [error, request] at hlog

theorem whois_eq (tab : s.tabs.current = .chat hub uid nick) : s.whois "" =
    (s.findUser hub nick).map fun u => s.info (joinWith "\n" (portrait u)) := by
  have hhub : s.anyHub = .ok hub := anyHub_eq_ok_iff.2 (by rw [currentHub?, tab]; rfl)
  have hasked : s.askedUser "" = .ok nick := by
    unfold askedUser
    rw [tab]
    rfl
  unfold whois
  rw [hhub, hasked]
  cases h : s.findUser hub nick <;> simp [bind, Except.bind, h, Except.map, pure, Except.pure]

theorem dispatch_whois_eq (tab : s.tabs.current = .chat hub uid nick)
    (reads : Command.Line.parse? line = some ⟨"whois", ""⟩) : s.dispatch line =
      s.settle ((s.findUser hub nick).map fun u => s.info (joinWith "\n" (portrait u))) := by
  rw [← whois_eq tab]
  exact dispatch_of_parse? (c := .whois) reads

/-- A chat message from a private chat is sent to the user of the tab or not at all. -/
theorem dispatch_chat_eq_request_iff (tab : s.tabs.current = .chat hub uid nick)
    (plain : Command.Line.parse? m = some ⟨Command.chatName, m⟩) :
    s.dispatch m = s.request r ↔ r = .tell hub uid m false ∧ s.Reaches m false r := by
  have hblank : isBlankText m = false := by
    by_contra hall
    have hnone : Command.Line.parse? m = none :=
      Command.Line.parse?_eq_none_iff.2 (by simpa [isBlankText] using hall)
    rw [plain] at hnone
    cases hnone
  have hdispatch : s.dispatch m = s.settle (s.chat m false) := dispatch_of_parse? (c := .say) plain
  rw [hdispatch]
  constructor
  · intro h
    cases hchat : s.chat m false with
    | error f =>
      rw [hchat] at h
      exact absurd h error_ne_request
    | ok t =>
      obtain ⟨-, r', hreaches, rfl⟩ := chat_eq_ok_iff.1 hchat
      rw [hchat] at h
      obtain rfl := request_inj.1 h
      refine ⟨?_, hreaches⟩
      cases hreaches with
      | hub htab => cases tab.symm.trans htab
      | user htab =>
        cases tab.symm.trans htab
        rfl
  · rintro ⟨-, hreaches⟩
    rw [chat_eq_ok_iff.2 ⟨hblank, r, hreaches, rfl⟩]
    rfl

/-- In a private chat `whois` without a name shows the first user on the hub's list who has the nick
that was noted when the chat was opened, with name and id, and fails if nobody has it. Over a
connection what is said in the chat goes to the user shown iff that is the one whom the chat was
opened with. -/
theorem whois_names_nick (tab : s.tabs.current = .chat hub uid nick)
    (reads : Command.Line.parse? line = some ⟨"whois", ""⟩) :
    ((∀ u ∈ s.link.users hub, u.name ≠ nick) →
      s.dispatch line = s.error (Failure.userNotFound nick).message) ∧
    ∀ u, FirstNamed (s.link.users hub) nick u →
      s.dispatch line = s.info (joinWith "\n" (portrait u)) ∧ Portrays u (portrait u) ∧
      ∀ m, Command.Line.parse? m = some ⟨"say", m⟩ → s.link.isConnected hub = true →
        (s.dispatch m = s.request (.tell hub u.uid m false) ↔ u.uid = uid) := by
  rw [dispatch_whois_eq tab reads]
  refine ⟨fun hnone => ?_, fun u hfirst => ?_⟩
  · rw [findUser, Link.findUser?_eq_none_iff.2 hnone]
    rfl
  · have hfind := Link.findUser?_eq_some_iff.2 hfirst
    refine ⟨by rw [findUser, hfind]; rfl, portrays_portrait u, fun m plain connected => ?_⟩
    rw [dispatch_chat_eq_request_iff tab plain]
    constructor
    · rintro ⟨heq, -⟩
      injection heq
    · rintro rfl
      exact ⟨rfl, .user tab connected ⟨u, List.mem_of_find?_eq_some hfind, rfl⟩⟩

/-- Two users have the nick, and the chat is with the first one. -/
theorem whois_names_nick_first :
    let alice : User := ⟨1, "alice", 0, none, false⟩
    let s := (new (.empty "/") ((Link.offline.setState 1 .connected).setUsers 1
      [⟨3, "bob", 0, none, false⟩, alice, ⟨2, "alice", 0, none, false⟩])).focus (.chat 1 1 "alice")
    s.tabs.current = .chat 1 1 "alice" ∧
      Command.Line.parse? " /whois " = some ⟨"whois", ""⟩ ∧
      Command.Line.parse? "hi" = some ⟨"say", "hi"⟩ ∧
      FirstNamed (s.link.users 1) "alice" alice ∧ s.link.isConnected 1 = true ∧
      s.dispatch " /whois " = s.info (joinWith "\n" (portrait alice)) ∧
      s.dispatch "hi" = s.request (.tell 1 1 "hi" false) := by
  intro alice s
  have htab : s.tabs.current = .chat 1 1 "alice" := by decide
  have hreads : Command.Line.parse? " /whois " = some ⟨"whois", ""⟩ := by decide
  have hplain : Command.Line.parse? "hi" = some ⟨"say", "hi"⟩ := by decide
  have hfirst : FirstNamed (s.link.users 1) "alice" alice :=
    ⟨[⟨3, "bob", 0, none, false⟩], [⟨2, "alice", 0, none, false⟩], by decide, rfl, by decide⟩
  have hconnected : s.link.isConnected 1 = true := by decide
  obtain ⟨hshown, -, hsent⟩ := (whois_names_nick htab hreads).2 alice hfirst
  exact ⟨htab, hreads, hplain, hfirst, hconnected, hshown, (hsent "hi" hplain hconnected).2 rfl⟩

/-- It is not so that all through a run `whois` shows the user with whom the private chat is: here
that user has become bob, and another one has taken the name. -/
theorem not_whois_uid : ¬ ∀ (link : Link) (es : List Event) hub uid nick (u : User),
    ((new (.empty "/") link).after es).tabs.current = .chat hub uid nick →
    ((new (.empty "/") link).after es).dispatch "/whois" =
      ((new (.empty "/") link).after es).info (joinWith "\n" (portrait u)) → u.uid = uid := by
  intro h
  let es : List Event := [.act (.line "/open -n home"),
    .world (fun _ => .connected) (fun _ => [⟨1, "alice", 0, none, false⟩]) (fun _ => .connected),
    .act (.line "/msg alice"),
    .world (fun _ => .connected)
      (fun _ => [⟨2, "alice", 0, none, false⟩, ⟨1, "bob", 0, none, false⟩]) (fun _ => .connected)]
  have htab : ((new (.empty "/") .offline).after es).tabs.current = .chat 1 1 "alice" := by
    decide +kernel
  have hfind : ((new (.empty "/") .offline).after es).link.findUser? 1 "alice" =
      some ⟨2, "alice", 0, none, false⟩ := by decide +kernel
  have huid := h .offline es 1 1 "alice" ⟨2, "alice", 0, none, false⟩ htab (by
    rw [dispatch_whois_eq htab (by decide), findUser, hfind]
    rfl)
  exact absurd huid (by decide)

end Session
end HubConsole
