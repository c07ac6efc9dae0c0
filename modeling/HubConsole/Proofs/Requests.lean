import HubConsole.Proofs.TabOrder
import HubConsole.Proofs.Takes

/-! # Requests are made where they are due

What a session asks of its link at an event (`Permitted`), and that in no run it asks for anything
else (`requests_permitted`): connections of hubs without one, messages to hubs that are connected
and to users that are there, searches of connected hubs. -/

namespace HubConsole

/-- The hubs with a name come in the order of their ids. -/
theorem Store.pairwise_hubIds (s : Store) : s.hubIds.Pairwise (· < ·) := by
  unfold hubIds hubs
  rw [List.map_map, List.pairwise_map]
  refine (List.Pairwise.filter _ s.sorted).imp_of_mem fun {e f} he hf hlt => ?_
  have hname : e.name = f.name := by
    have he' := (List.mem_filter.1 he).2
    have hf' := (List.mem_filter.1 hf).2
    simp only [Bool.and_eq_true, beq_iff_eq] at he' hf'
    exact he'.2.trans hf'.2.symm
  rcases hlt with hlt | ⟨-, hlt⟩
  · exact hlt
  · exact absurd (hname ▸ hlt) (String.lt_irrefl _)

theorem Store.nodup_hubIds (s : Store) : s.hubIds.Nodup :=
  s.pairwise_hubIds.imp fun {a b} (h : a < b) (e : a = b) => UInt64.lt_irrefl b (e ▸ h)

namespace Session
open Link Result

/-- The hubs that a search may be sent to. -/
def Searchable (s : Session) (l : Link) (hubs : List HubId) : SearchScope → Prop
  | .currentHub => ∃ hub, s.currentHub? = some hub ∧ l.isConnected hub = true ∧ hubs = [hub]
  | .allHubs => hubs = s.tabs.hubs.filter l.isConnected

/-- Whether the act `a` may make the session `s` ask for this when the link is `l`. A connection is
asked for to the address that is noted. -/
def Permitted (s : Session) (a : Act) (l : Link) : Request → Prop
  | .connect hub address =>
    l.isIdle hub = true ∧ (s.act a).store.notedAddress? hub = some address
  | .disconnect hub => l.isIdle hub = false
  | .say hub _ _ => l.isConnected hub = true
  | .tell hub uid _ _ => l.isConnected hub = true ∧ ∃ u ∈ l.users hub, u.uid = uid
  | .kick hub uid => l.isConnected hub = true ∧ ∃ u ∈ l.users hub, u.uid = uid ∧
      ∃ line, a = .line line ∧ Command.Line.parse? line = some ⟨"kick", u.name⟩
  | .password hub _ => l.isIdle hub = false
  | .search hubs query => hubs ≠ [] ∧ hubs.Nodup ∧ Searchable s l hubs query.scope

variable {s t : Session} {c : Command} {args : String} {P : Link → Request → Prop}

theorem takes_request {r : Request} (h : P s.link r) :
    ∃ rs, Takes P s.link rs (s.request r).link := ⟨[r], .single h⟩

/-! ## The parts of commands that make several requests -/

theorem isIdle_hangUp {hub : HubId} : (s.hangUp hub).link.isIdle hub = true := by
  unfold hangUp
  split
  · next hidle => exact hidle
  · exact isIdle_send_disconnect

section
variable (hdisc : ∀ l hub, l.isIdle hub = false → P l (.disconnect hub))

include hdisc

theorem takes_hangUp (s : Session) (hub : HubId) :
    ∃ rs, Takes P s.link rs (s.hangUp hub).link := by
  unfold hangUp
  split
  · exact ⟨[], .nil⟩
  · next hbusy =>
    have hbusy' : s.link.isIdle hub = false := by simpa using hbusy
    exact ⟨_, .single (hdisc _ _ hbusy')⟩

/-- Hubs that differ are disconnected one by one: each still has its connection when it is its
turn. -/
theorem takes_disconnectAll {hubs : List HubId} (hd : hubs.Nodup)
    (hbusy : ∀ hub ∈ hubs, s.link.isIdle hub = false) :
    ∃ rs, Takes P s.link rs (s.disconnectAll hubs).link := by
  induction hubs generalizing s with
  | nil => exact ⟨[], .nil⟩
  | cons hub hubs ih =>
    obtain ⟨hnot, hd⟩ := List.nodup_cons.1 hd
    have hrest : ∀ k ∈ hubs, (s.request (.disconnect hub)).link.isIdle k = false := by
      intro k hk
      have hne : k ≠ hub := fun e => hnot (e ▸ hk)
      show (s.link.send (.disconnect hub)).isIdle k = false
      rw [isIdle_send_disconnect_of_ne hne]
      exact hbusy k (List.mem_cons_of_mem _ hk)
    obtain ⟨rs, hrs⟩ := ih hd hrest
    exact ⟨_, .cons (hdisc _ _ (hbusy hub List.mem_cons_self)) hrs⟩

variable (hconn : ∀ l hub a, l.isIdle hub = true → s.store.notedAddress? hub = some a →
  P l (.connect hub a))

include hconn

theorem takes_restart {hub : HubId} {a : Address} (ha : s.store.notedAddress? hub = some a) :
    ∃ rs, Takes P s.link rs (s.restart hub a).link := by
  obtain ⟨rs, hrs⟩ := takes_hangUp hdisc s hub
  exact ⟨_, hrs.append (.single (hconn _ _ _ isIdle_hangUp ha))⟩

theorem takes_reconnectAll (hubs : List HubId) :
    ∃ rs, Takes P s.link rs (s.reconnectAll hubs).1.link := by
  induction hubs generalizing s with
  | nil => exact ⟨[], .nil⟩
  | cons hub hubs ih =>
    unfold reconnectAll
    split
    · next a ha =>
      obtain ⟨rs, hrs⟩ := takes_restart hdisc hconn ha
      obtain ⟨qs, hqs⟩ := ih (s := s.restart hub a) (by rwa [store_restart])
      exact ⟨_, hrs.append hqs⟩
    · exact ih hconn

end

/-- Hubs that differ are connected from the start one by one: each still has no connection when it is
its turn, if none has one before. -/
theorem takes_connectMarked {start : Prop} {hubs : List HubId} (hd : hubs.Nodup)
    (hidle : start → ∀ k ∈ hubs, s.link.isIdle k = true)
    (h : ∀ l hub a, s.store.notedAddress? hub = some a → (start → l.isIdle hub = true) →
      P l (.connect hub a)) :
    ∃ rs, Takes P s.link rs (hubs.foldl connectMarked s).link := by
  induction hubs generalizing s with
  | nil => exact ⟨[], .nil⟩
  | cons hub hubs ih =>
    obtain ⟨hnot, hd⟩ := List.nodup_cons.1 hd
    rw [List.foldl_cons]
    unfold connectMarked
    split
    · next a ha =>
      have hnoted : s.store.notedAddress? hub = some a := by
        split at ha
        · exact ha
        · simp at ha
      have hrest : start → ∀ k ∈ hubs, (s.link.send (.connect hub a)).isIdle k = true := by
        intro hstart k hk
        have hne : k ≠ hub := fun e => hnot (e ▸ hk)
        rw [isIdle_send_connect_of_ne hne]
        exact hidle hstart k (List.mem_cons_of_mem _ hk)
      obtain ⟨rs, hrs⟩ :=
        ih (s := { s with tabs := s.tabs.add (.hub hub) }.startConnect hub a) hd hrest h
      have hpermitted : P s.link (.connect hub a) :=
        h _ _ _ hnoted fun hstart => hidle hstart hub List.mem_cons_self
      exact ⟨_, .cons hpermitted hrs⟩
    · exact ih hd (fun hstart k hk => hidle hstart k (List.mem_cons_of_mem _ hk)) h

theorem takes_autoconnect (h : ∀ l hub a, s.store.notedAddress? hub = some a →
      ((∀ k, s.link.isIdle k = true) → l.isIdle hub = true) → P l (.connect hub a)) :
    ∃ rs, Takes P s.link rs s.autoconnect.link :=
  takes_connectMarked s.store.nodup_hubIds (fun hall k _ => hall k) h

/-! ## All commands -/

theorem searched_eq_ok {scope : SearchScope} {hubs : List HubId} (hd : s.tabs.Distinct)
    (h : s.searched scope = .ok hubs) :
    hubs ≠ [] ∧ hubs.Nodup ∧ Searchable s s.link hubs scope := by
  unfold searched at h
  cases scope with
  | currentHub =>
    dsimp only at h
    split at h
    · simp at h
    · next hub hhere =>
      simp only [bind_eq_ok_iff, checkConnected_eq_ok_iff, pure_eq_ok_iff] at h
      obtain ⟨-, hconn, rfl⟩ := h
      exact ⟨by simp, by simp, hub, hhere, hconn, rfl⟩
  | allHubs =>
    dsimp only at h
    split at h
    · simp at h
    · next hne =>
      rw [pure_eq_ok_iff] at h
      subst h
      exact ⟨hne, hd.hubs.filter _, rfl⟩

theorem takes_dispatch (line : String) (hd : s.tabs.Distinct) :
    ∃ rs, Takes (Permitted s (.line line)) s.link rs (s.dispatch line).link := by
  rcases dispatch_cases s line with ⟨-, h⟩ | ⟨-, -, f, -, -, h⟩ | ⟨c, args, hline, h⟩
  · rw [h]
    exact ⟨[], .nil⟩
  · rw [h]
    exact ⟨[], .nil⟩
  have hstore : (s.act (.line line)).store = (s.dispatch line).store := rfl
  generalize s.dispatch line = t at h hstore
  have hdisc : ∀ l hub, l.isIdle hub = false → Permitted s (.line line) l (.disconnect hub) :=
    fun _ _ hbusy => hbusy
  have hconn : ∀ l hub a, l.isIdle hub = true → t.store.notedAddress? hub = some a →
      Permitted s (.line line) l (.connect hub a) := fun _ _ _ hidle ha => ⟨hidle, hstore ▸ ha⟩
  cases h with
  | shown | refused | cleared | quit | approached | unsent | opened | openedIdly | lost | closedChat
  | unclosed | assigned | unassigned | granted | revoked => exact ⟨[], .nil⟩
  | said _ _ connected => exact takes_request connected
  | told _ _ connected online => exact takes_request ⟨connected, online⟩
  | wrote _ user connected =>
    exact takes_request ⟨connected, _, List.mem_of_find?_eq_some user, rfl⟩
  | openedConnecting _ _ idle noted => exact takes_request (hconn _ _ _ idle noted)
  | connected _ idle _ noted => exact takes_request (hconn _ _ _ idle noted)
  | disconnected _ busy => exact takes_request (hdisc _ _ busy)
  | disconnectedAll =>
    exact takes_disconnectAll hdisc (hd.hubs.filter _) fun hub hmem => by
      simpa using (List.mem_filter.1 hmem).2
  | @reconnected _ hub a _ noted =>
    rw [store_restart] at hconn
    exact takes_restart hdisc hconn noted
  | reconnectedAll =>
    rw [store_reconnectAll] at hconn
    exact takes_reconnectAll hdisc hconn _
  | reconnectedNone =>
    rw [store_error, store_reconnectAll] at hconn
    exact takes_reconnectAll hdisc hconn _
  | @closedHub _ hub => exact takes_hangUp hdisc s hub
  | kicked _ connected user =>
    have hname := List.find?_some user
    simp only [beq_iff_eq] at hname
    refine takes_request (r := .kick _ _)
      ⟨connected, _, List.mem_of_find?_eq_some user, rfl, line, rfl, ?_⟩
    rw [hline, hname]
    rfl
  | answered _ busy => exact takes_request (r := .password _ args) busy
  | searched _ found => exact takes_request (r := .search _ _) (searched_eq_ok hd found)

/-- What an act asks of the link. Only what is connected from the start must not be connected
yet. -/
theorem takes_act {a : Act} (hd : s.tabs.Distinct)
    (hidle : a = .autoconnect → ∀ hub, s.link.isIdle hub = true) :
    ∃ rs, Takes (Permitted s a) s.link rs (s.act a).link := by
  cases a with
  | line line => exact takes_dispatch line hd
  | autoconnect =>
    refine takes_autoconnect fun l hub a ha hl => ⟨hl (hidle rfl), ?_⟩
    rw [act, store_autoconnect]
    exact ha
  | next => exact ⟨[], .nil⟩
  | previous => exact ⟨[], .nil⟩

/-- In a run whose link has no connections at first, and where hubs are connected from the start
only then, every request is permitted when it is made. The world may change at any time in
between. -/
theorem requests_permitted (store : Store) {link : Link}
    (idle : ∀ hub, link.isIdle hub = true) (es : List Event) (a : Act)
    (first : Event.act .autoconnect ∉ (es ++ [Event.act a]).tail) :
    ∃ rs, (((new store link).after es).act a).link.requests =
        ((new store link).after es).link.requests ++ rs ∧
      Takes (Permitted ((new store link).after es) a) ((new store link).after es).link rs
        (((new store link).after es).act a).link := by
  have hidle : a = .autoconnect → ∀ hub, ((new store link).after es).link.isIdle hub = true := by
    rintro rfl
    cases es with
    | nil => exact idle
    | cons e es => exact absurd (by simp) first
  obtain ⟨rs, h⟩ := takes_act (distinct_after es) hidle
  exact ⟨rs, h.requests_eq, h⟩

/-- A hub that is connected from the start can be disconnected. -/
theorem requests_permitted_marked :
    let s := (new (.ofEntries "/" [⟨1, "autoconnect", "true"⟩, ⟨1, "hubaddr", "adc://h:1/"⟩,
      ⟨1, "hubname", "a"⟩]) .offline).after [.act .autoconnect]
    let t := s.act (.line "/disconnect")
    t.link.requests = [.connect 1 ⟨.adc, "h", 1, none⟩, .disconnect 1] ∧
      ∃ rs, t.link.requests = s.link.requests ++ rs ∧
        Takes (Permitted s (.line "/disconnect")) s.link rs t.link :=
  ⟨by rfl, requests_permitted _ (fun _ => rfl) [.act .autoconnect] _ (by simp)⟩

end Session
end HubConsole
