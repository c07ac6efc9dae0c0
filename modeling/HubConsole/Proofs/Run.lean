import HubConsole.Proofs.Outcome

/-! # Runs

What may happen to a session one event after another, and what events do to its settings and tabs.
A property that every event keeps holds all through a run (`after_induction`). -/

namespace HubConsole

namespace Session
variable {s t : Session} {c : Command} {args : String}

/-- What the user of a session does. -/
inductive Act where
  | line (text : String)
  | autoconnect
  | next
  | previous
deriving DecidableEq

/-- What may happen to a session. -/
inductive Event where
  | act (a : Act)
  /-- Hubs and their users change. The requests made so far stay. -/
  | world (state : HubId → LinkState) (users : HubId → List User) (onConnect : HubId → LinkState)

def act (s : Session) : Act → Session
  | .line text => s.dispatch text
  | .autoconnect => s.autoconnect
  | .next => s.focusNext
  | .previous => s.focusPrevious

def step (s : Session) : Event → Session
  | .act a => s.act a
  | .world state users onConnect => { s with link := { s.link with state, users, onConnect } }

/-- The session after some events. -/
def after (s : Session) (es : List Event) : Session := es.foldl step s

theorem after_induction {P : Session → Prop} (start : P s) (keep : ∀ s e, P s → P (s.step e))
    (es : List Event) : P (s.after es) := by
  induction es generalizing s with
  | nil => exact start
  | cons e es ih => exact ih (keep s e start)

/-! ## What the parts of commands leave alone -/

@[simp] theorem store_error {text : String} : (s.error text).store = s.store := rfl

@[simp] theorem tabs_error {text : String} : (s.error text).tabs = s.tabs := rfl

@[simp] theorem link_error {text : String} : (s.error text).link = s.link := rfl

@[simp] theorem tabs_info {text : String} : (s.info text).tabs = s.tabs := rfl

@[simp] theorem link_info {text : String} : (s.info text).link = s.link := rfl

theorem hangUp_eq (s : Session) (hub : HubId) : ∃ link, s.hangUp hub = { s with link } := by
  unfold hangUp
  split
  · exact ⟨s.link, rfl⟩
  · exact ⟨_, rfl⟩

theorem restart_eq (s : Session) (hub : HubId) (a : Address) :
    ∃ link log, s.restart hub a = { s with link, log } := by
  obtain ⟨link, h⟩ := hangUp_eq s hub
  unfold restart
  rw [h]
  exact ⟨_, _, rfl⟩

@[simp] theorem store_restart {hub : HubId} {a : Address} : (s.restart hub a).store = s.store := by
  obtain ⟨link, log, h⟩ := restart_eq s hub a
  rw [h]

@[simp] theorem tabs_restart {hub : HubId} {a : Address} : (s.restart hub a).tabs = s.tabs := by
  obtain ⟨link, log, h⟩ := restart_eq s hub a
  rw [h]

theorem connectOpened_eq (s : Session) (hub : HubId) (a? : Option Address) :
    ∃ link log, s.connectOpened hub a? = { s with link, log } := by
  unfold connectOpened
  split
  · split
    · exact ⟨_, _, rfl⟩
    · exact ⟨_, _, rfl⟩
  · split
    · exact ⟨_, _, rfl⟩
    · exact ⟨_, _, rfl⟩

theorem disconnectAll_eq (s : Session) (hubs : List HubId) :
    ∃ link, s.disconnectAll hubs = { s with link } := by
  unfold disconnectAll
  induction hubs generalizing s with
  | nil => exact ⟨s.link, rfl⟩
  | cons hub hubs ih => exact ih (s.request (.disconnect hub))

@[simp] theorem store_disconnectAll {hubs : List HubId} :
    (s.disconnectAll hubs).store = s.store := by
  obtain ⟨link, h⟩ := disconnectAll_eq s hubs
  rw [h]

@[simp] theorem tabs_disconnectAll {hubs : List HubId} : (s.disconnectAll hubs).tabs = s.tabs := by
  obtain ⟨link, h⟩ := disconnectAll_eq s hubs
  rw [h]

theorem reconnectAll_eq (s : Session) (hubs : List HubId) :
    ∃ link log, (s.reconnectAll hubs).1 = { s with link, log } := by
  induction hubs generalizing s with
  | nil => exact ⟨s.link, s.log, rfl⟩
  | cons hub hubs ih =>
    unfold reconnectAll
    split
    · next a ha =>
      obtain ⟨link, log, hr⟩ := restart_eq s hub a
      obtain ⟨link', log', h⟩ := ih (s.restart hub a)
      exact ⟨link', log', h.trans (by rw [hr])⟩
    · exact ih s

@[simp] theorem store_reconnectAll {hubs : List HubId} :
    (s.reconnectAll hubs).1.store = s.store := by
  obtain ⟨link, log, h⟩ := reconnectAll_eq s hubs
  rw [h]

@[simp] theorem tabs_reconnectAll {hubs : List HubId} :
    (s.reconnectAll hubs).1.tabs = s.tabs := by
  obtain ⟨link, log, h⟩ := reconnectAll_eq s hubs
  rw [h]

theorem connectMarked_eq (s : Session) (hub : HubId) : ∃ tabs link log,
    s.connectMarked hub = { s with tabs, link, log } ∧
      (tabs = s.tabs ∨ tabs = s.tabs.add (.hub hub)) := by
  unfold connectMarked
  split
  · exact ⟨_, _, _, rfl, .inr rfl⟩
  · exact ⟨_, _, _, rfl, .inl rfl⟩

/-- What holds of the tabs, and of them with more tabs for hubs, holds of them after all hubs have
been connected that are to be from the start. The settings stay as they are. -/
theorem autoconnect_induction {P : Tabs → Prop} (start : P s.tabs)
    (add : ∀ ts, ∀ hub ∈ s.store.hubIds, P ts → P (ts.add (.hub hub))) :
    ∃ tabs link log, s.autoconnect = { s with tabs, link, log } ∧ P tabs := by
  unfold autoconnect
  generalize s.store.hubIds = hubs at add
  induction hubs generalizing s with
  | nil => exact ⟨s.tabs, s.link, s.log, rfl, start⟩
  | cons hub hubs ih =>
    obtain ⟨tabs, link, log, h, htabs⟩ := connectMarked_eq s hub
    have hP : P tabs := by
      rcases htabs with rfl | rfl
      · exact start
      · exact add _ hub List.mem_cons_self start
    rw [List.foldl_cons, h]
    exact ih (s := { s with tabs, link, log }) hP
      fun ts hub' hmem => add ts hub' (List.mem_cons_of_mem _ hmem)

@[simp] theorem store_autoconnect : s.autoconnect.store = s.store := by
  obtain ⟨tabs, link, log, heq, -⟩ :=
    autoconnect_induction (P := fun _ => True) (s := s) trivial fun _ _ _ _ => trivial
  rw [heq]

end Session
end HubConsole
