import HubConsole.Proofs.Requests

/-! # No connection without a tab

`Session.Attended`: each hub that is not idle has its own tab. Hubs are connected from their tabs
only, or along with the opening of one, and a hub's tab is closed only after the end of its
connection. So on a link whose hubs stay idle until they are connected this holds all through a run,
and what goes through the open hubs goes through all connections (`connections_attended`). -/

namespace HubConsole

namespace Link
variable {l m n : Link} {P : HubId → Prop} {hub : HubId}

/-- From the link `l` to the link `m` only hubs that satisfy `P` cease to be idle. -/
def Wakes (P : HubId → Prop) (l m : Link) : Prop :=
  ∀ hub, m.isIdle hub = false → l.isIdle hub = false ∨ P hub

namespace Wakes

theorem refl : Wakes P l l := fun _ hbusy => .inl hbusy

theorem trans (h : Wakes P l m) (k : Wakes P m n) : Wakes P l n := by
  intro hub hbusy
  rcases k hub hbusy with hm | hP
  · exact h hub hm
  · exact .inr hP

/-- Only a request to connect a hub wakes one, and no other than that. -/
theorem send {r : Request} (h : ∀ hub a, r = .connect hub a → P hub) : Wakes P l (l.send r) := by
  intro k hbusy
  cases r with
  | connect hub a =>
    by_cases hk : k = hub
    · exact .inr (hk ▸ h hub a rfl)
    · rw [isIdle_send_connect_of_ne hk] at hbusy
      exact .inl hbusy
  | disconnect hub =>
    by_cases hk : k = hub
    · rw [hk, isIdle_send_disconnect] at hbusy
      cases hbusy
    · rw [isIdle_send_disconnect_of_ne hk] at hbusy
      exact .inl hbusy
  | say | tell | search | kick | password => exact .inl hbusy

/-- A hub that nothing wakes stays idle. -/
theorem isIdle (h : Wakes P l m) (hP : ¬ P hub) (hidle : l.isIdle hub = true) :
    m.isIdle hub = true := by
  by_contra hbusy
  rcases h hub (by simpa using hbusy) with hl | hhub
  · rw [hidle] at hl
    cases hl
  · exact hP hhub

end Wakes
end Link

namespace Session
open Link
variable {s t : Session} {c : Command} {args line : String} {hub : HubId} {a : Address}
  {P : HubId → Prop}

/-! ## What commands wake -/

theorem wakes_request {r : Request} (h : ∀ hub a, r ≠ .connect hub a) :
    Wakes P s.link (s.request r).link := Wakes.send fun hub a heq => absurd heq (h hub a)

theorem wakes_hangUp : Wakes P s.link (s.hangUp hub).link := by
  unfold hangUp
  split
  · exact .refl
  · exact wakes_request (by simp)

theorem wakes_startConnect (h : P hub) : Wakes P s.link (s.startConnect hub a).link := by
  have hsend : Wakes P s.link (s.link.send (.connect hub a)) := by
    refine Wakes.send ?_
    rintro _ _ ⟨⟩
    exact h
  exact hsend

theorem wakes_restart (h : P hub) : Wakes P s.link (s.restart hub a).link :=
  wakes_hangUp.trans (wakes_startConnect h)

theorem wakes_disconnectAll (hubs : List HubId) : Wakes P s.link (s.disconnectAll hubs).link := by
  induction hubs generalizing s with
  | nil => exact .refl
  | cons hub hubs ih =>
    have hfirst : Wakes P s.link (s.request (.disconnect hub)).link := wakes_request (by simp)
    exact hfirst.trans ih

/-- The hubs that are disconnected one by one are idle in the end: none wakes another. -/
theorem isIdle_disconnectAll {hubs : List HubId} (h : hub ∈ hubs) :
    (s.disconnectAll hubs).link.isIdle hub = true := by
  induction hubs generalizing s with
  | nil => cases h
  | cons k hubs ih =>
    by_cases hmem : hub ∈ hubs
    · exact ih hmem
    · have hk : hub = k := (List.mem_cons.1 h).resolve_right hmem
      have hidle : (s.request (.disconnect k)).link.isIdle hub = true := by
        rw [hk]
        exact isIdle_send_disconnect
      have hrest := wakes_disconnectAll (s := s.request (.disconnect k)) (P := fun _ => False) hubs
      exact hrest.isIdle id hidle

theorem wakes_reconnectAll {hubs : List HubId} (h : ∀ hub ∈ hubs, P hub) :
    Wakes P s.link (s.reconnectAll hubs).1.link := by
  induction hubs generalizing s with
  | nil => exact .refl
  | cons hub hubs ih =>
    have hrest : ∀ k ∈ hubs, P k := fun k hk => h k (List.mem_cons_of_mem _ hk)
    unfold reconnectAll
    split
    · exact (wakes_restart (h hub List.mem_cons_self)).trans (ih hrest)
    · exact ih hrest

theorem hub_mem_of_current (h : s.tabs.current = .hub hub) : .hub hub ∈ s.tabs.all := by
  have hmem : s.tabs.current ∈ s.tabs.all := Tabs.current_mem (by rw [h]; simp)
  rwa [h] at hmem

theorem hub_mem_focus : .hub hub ∈ (s.tabs.focus (.hub hub)).all := by
  rw [Tabs.all_focus, Tabs.mem_add]
  exact .inr rfl

/-- A command wakes only hubs that have a tab afterwards. -/
theorem Outcome.wakes (h : Outcome s c args t) :
    Wakes (fun hub => .hub hub ∈ t.tabs.all) s.link t.link := by
  cases h with
  | shown | refused | cleared | quit | approached | unsent | opened | openedIdly | lost | closedChat
  | unclosed | assigned | unassigned | granted | revoked => exact .refl
  | said | told | wrote => exact wakes_request (s := s) (by simp)
  | disconnected | kicked | answered | searched =>
    rw [link_info]
    exact wakes_request (by simp)
  | openedConnecting => exact wakes_startConnect hub_mem_focus
  | connected tab => exact wakes_startConnect (hub_mem_of_current tab)
  | disconnectedAll => exact wakes_disconnectAll _
  | reconnected tab => exact wakes_restart (tabs_restart (s := s) ▸ hub_mem_of_current tab)
  | reconnectedAll | reconnectedNone =>
    refine wakes_reconnectAll fun hub hhub => ?_
    simpa using Tabs.mem_hubs.1 hhub
  | closedHub => exact wakes_hangUp

/-- A hub whose tab a command closes is idle afterwards. -/
theorem Outcome.hub_mem_or_isIdle (h : Outcome s c args t) (hmem : .hub hub ∈ s.tabs.all) :
    .hub hub ∈ t.tabs.all ∨ t.link.isIdle hub = true := by
  have focused : ∀ u, .hub hub ∈ (s.tabs.focus u).all := by
    intro u
    rw [Tabs.all_focus, Tabs.mem_add]
    exact .inl hmem
  cases h with
  | @closedHub _ k tab =>
    by_cases hk : hub = k
    · subst hk
      exact .inr isIdle_hangUp
    · exact .inl (List.mem_filter.2 ⟨hmem, by simpa [Tab.hub?] using hk⟩)
  | closedChat tab =>
    -- what is closed is a private chat
    have hpos : s.tabs.all[s.tabs.position]? = some s.tabs.current :=
      Tabs.getElem?_position (by rw [tab]; simp)
    obtain ⟨i, hi⟩ := List.mem_iff_getElem?.1 hmem
    refine .inl (List.mem_eraseIdx_iff_getElem?.2 ⟨i, ?_, hi⟩)
    rintro rfl
    rw [hpos, tab] at hi
    cases hi
  | opened | openedIdly | openedConnecting | approached | wrote | unsent => exact .inl (focused _)
  | reconnected | reconnectedAll | reconnectedNone | disconnectedAll =>
    exact .inl (by simpa using hmem)
  | _ => exact .inl hmem

/-! ## All through a run -/

/-- Each hub that is not idle has its own tab. -/
def Attended (s : Session) : Prop := ∀ hub, s.link.isIdle hub = false → .hub hub ∈ s.tabs.all

/-- An event at which no hub ceases to be idle but by a request to connect it. -/
def Event.Calm (s : Session) : Event → Prop
  | .act _ => True
  | .world state _ _ => ∀ hub, s.link.state hub = .idle → state hub = .idle

/-- A run in which no hub ceases to be idle but by a request to connect it. -/
def Calm (s : Session) : List Event → Prop
  | [] => True
  | e :: es => e.Calm s ∧ (s.step e).Calm es

namespace Attended

theorem outcome (h : s.Attended) (ho : Outcome s c args t) : t.Attended := by
  intro hub hbusy
  rcases ho.wakes hub hbusy with hbefore | hmem
  · rcases ho.hub_mem_or_isIdle (h hub hbefore) with hmem | hidle
    · exact hmem
    · rw [hidle] at hbusy
      cases hbusy
  · exact hmem

theorem dispatch (h : s.Attended) (line : String) : (s.dispatch line).Attended := by
  rcases dispatch_cases s line with ⟨-, heq⟩ | ⟨-, -, f, -, -, heq⟩ | ⟨c, args, -, ho⟩
  · rw [heq]
    exact h
  · rw [heq]
    exact h
  · exact h.outcome ho

theorem connectMarked (h : s.Attended) (hub : HubId) : (s.connectMarked hub).Attended := by
  unfold Session.connectMarked
  split
  · next a ha =>
    intro k hbusy
    have hwakes : Wakes (· = hub) s.link
        ({ s with tabs := s.tabs.add (.hub hub) }.startConnect hub a).link := wakes_startConnect rfl
    show .hub k ∈ (s.tabs.add (.hub hub)).all
    rw [Tabs.mem_add]
    rcases hwakes k hbusy with hbefore | rfl
    · exact .inl (h k hbefore)
    · exact .inr rfl
  · exact h

theorem autoconnect (h : s.Attended) : s.autoconnect.Attended := by
  unfold Session.autoconnect
  generalize s.store.hubIds = hubs
  induction hubs generalizing s with
  | nil => exact h
  | cons hub hubs ih => exact ih (h.connectMarked hub)

theorem step {e : Event} (h : s.Attended) (he : e.Calm s) : (s.step e).Attended := by
  cases e with
  | act a =>
    cases a with
    | line line => exact h.dispatch line
    | autoconnect => exact h.autoconnect
    | next => exact h
    | previous => exact h
  | world state users onConnect =>
    intro hub hbusy
    refine h hub ?_
    by_contra hidle
    have hstate : s.link.state hub = .idle := by simpa [isIdle] using hidle
    have hstill : state hub = .idle := he hub hstate
    simp [Session.step, isIdle, hstill] at hbusy

theorem after {es : List Event} (h : s.Attended) (hes : s.Calm es) : (s.after es).Attended := by
  induction es generalizing s with
  | nil => exact h
  | cons e es ih => exact ih (h.step hes.1) hes.2

/-- To disconnect from the main tab leaves no connection at all. -/
theorem isIdle_disconnect (h : s.Attended) (hmain : s.tabs.current = .main)
    (ho : Outcome s .disconnect "" t) (hub : HubId) : t.link.isIdle hub = true := by
  have open_of_busy : ∀ k, s.link.isIdle k = false →
      k ∈ s.tabs.hubs.filter fun hub => !s.link.isIdle hub := by
    intro k hbusy
    exact List.mem_filter.2 ⟨Tabs.mem_hubs.2 (h k hbusy), by simp [hbusy]⟩
  cases ho with
  | said chat | told chat => split at chat <;> cases chat
  | shown shows => cases shows
  | refused f fails =>
    -- it only fails where there is no connection to an open hub
    by_contra hbusy
    have hbusy' : s.link.isIdle hub = false := by simpa using hbusy
    have hmem := open_of_busy hub hbusy'
    have hrun : Command.disconnect.run s "" = s.disconnect := rfl
    have hne : (s.tabs.hubs.filter fun hub => !s.link.isIdle hub) ≠ [] := List.ne_nil_of_mem hmem
    rw [hrun, disconnect, hmain] at fails
    simp [hne, pure, Except.pure] at fails
  | disconnected tab =>
    rw [hmain] at tab
    cases tab
  | disconnectedAll =>
    show (s.disconnectAll _).link.isIdle hub = true
    cases hidle : s.link.isIdle hub with
    | false => exact isIdle_disconnectAll (open_of_busy hub hidle)
    | true => exact (wakes_disconnectAll (P := fun _ => False) _).isIdle id hidle

end Attended

theorem isIdle_close (htab : s.tabs.current = .hub hub) (ho : Outcome s .close "" t) :
    t.link.isIdle hub = true := by
  cases ho with
  | said chat | told chat => split at chat <;> cases chat
  | shown shows => cases shows
  | refused f fails => cases fails
  | @closedHub _ k tab =>
    rw [htab] at tab
    cases tab
    exact isIdle_hangUp
  | closedChat tab =>
    rw [htab] at tab
    cases tab
  | unclosed tab =>
    rw [htab] at tab
    cases tab

theorem attended_new (store : Store) {link : Link} (idle : ∀ hub, link.isIdle hub = true) :
    (new store link).Attended := by
  intro hub hbusy
  have hidle : link.isIdle hub = false := hbusy
  rw [idle hub] at hidle
  cases hidle

/-- In a run whose link has no connections at first, and where no hub ceases to be idle but by a
request to connect it, each hub that is not idle has its own tab. So `disconnect` on the main tab
ends all connections, and `close` on a hub's tab that of the hub. -/
theorem connections_attended (store : Store) {link : Link} (idle : ∀ hub, link.isIdle hub = true)
    (es : List Event) (calm : (new store link).Calm es) :
    let s := (new store link).after es
    (∀ hub, s.link.isIdle hub = false → .hub hub ∈ s.tabs.all) ∧
    (∀ line, Command.Line.parse? line = some ⟨"disconnect", ""⟩ → s.tabs.current = .main →
      ∀ hub, (s.dispatch line).link.isIdle hub = true) ∧
    ∀ line hub, Command.Line.parse? line = some ⟨"close", ""⟩ → s.tabs.current = .hub hub →
      (s.dispatch line).link.isIdle hub = true := by
  have h := (attended_new store idle).after calm
  refine ⟨h, ?_, ?_⟩
  · intro line hline hmain
    exact h.isIdle_disconnect hmain (outcome_dispatch (c := .disconnect) hline)
  · intro line hub hline htab
    exact isIdle_close htab (outcome_dispatch (c := .close) hline)

/-- A hub that is connected from the start and has then answered has its tab, and is disconnected
along with all others. -/
theorem connections_attended_marked :
    let s := (new (.ofEntries "/" [⟨1, "autoconnect", "true"⟩, ⟨1, "hubaddr", "adc://h:1/"⟩,
      ⟨1, "hubname", "a"⟩]) .offline).after [.act .autoconnect,
        .world (fun hub => if hub = 1 then .connected else .idle) (fun _ => []) fun _ => .connecting]
    s.link.isIdle 1 = false ∧ .hub 1 ∈ s.tabs.all ∧ s.tabs.current = .main ∧
      ∀ hub, (s.dispatch "/disconnect").link.isIdle hub = true := by
  intro s
  have idle : ∀ hub, Link.offline.isIdle hub = true := fun _ => rfl
  have calm : ∀ hub : HubId, (if hub = 1 then LinkState.connecting else .idle) = .idle →
      (if hub = 1 then LinkState.connected else .idle) = .idle := by
    intro hub hidle
    split at hidle
    · cases hidle
    · next hne => exact if_neg hne
  obtain ⟨hopen, hdisconnect, -⟩ := connections_attended (.ofEntries "/" [⟨1, "autoconnect", "true"⟩,
    ⟨1, "hubaddr", "adc://h:1/"⟩, ⟨1, "hubname", "a"⟩]) idle [.act .autoconnect,
      .world (fun hub => if hub = 1 then .connected else .idle) (fun _ => []) fun _ => .connecting]
    ⟨trivial, calm, trivial⟩
  exact ⟨rfl, hopen 1 rfl, rfl, hdisconnect "/disconnect" rfl rfl⟩

end Session
end HubConsole
