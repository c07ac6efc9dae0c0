import HubConsole.Proofs.Effect
import HubConsole.Proofs.Notes

/-! # Commands that fail

A line that reports an error has done nothing else (`dispatch_error`): the report stands alone, and
all but the log is as it was, save that a private chat may have been opened. What other lines report
is no error. -/

namespace HubConsole.Session
open Text Setting

variable {s t u : Session} {c : Command} {args : String}

/-- From `s` to `t` nothing but information is reported. -/
def Informs (s t : Session) : Prop := ∃ new, t.log = s.log ++ new ∧ ∀ m ∈ new, m.level = .info

namespace Informs

theorem of_log (h : t.log = s.log) : Informs s t := ⟨[], by simp [h], by simp⟩

theorem trans (h : Informs s t) (k : Informs t u) : Informs s u := by
  obtain ⟨new, hlog, hnew⟩ := h
  obtain ⟨more, klog, kmore⟩ := k
  refine ⟨new ++ more, by rw [klog, hlog, List.append_assoc], fun m hm => ?_⟩
  exact (List.mem_append.1 hm).elim (hnew m) (kmore m)

theorem info (s : Session) (text : String) : Informs s (s.info text) :=
  ⟨[⟨.info, text⟩], rfl, by simp⟩

theorem startConnect (s : Session) (hub : HubId) (a : Address) :
    Informs s (s.startConnect hub a) := info s _

theorem connectOpened (s : Session) (hub : HubId) (a? : Option Address) :
    Informs s (s.connectOpened hub a?) := by
  unfold Session.connectOpened
  split
  · split
    · exact startConnect s hub _
    · exact info s _
  · split
    · exact info s _
    · exact of_log rfl

theorem hangUp (s : Session) (hub : HubId) : Informs s (s.hangUp hub) := by
  obtain ⟨link, h⟩ := hangUp_eq s hub
  exact of_log (by rw [h])

theorem restart (s : Session) (hub : HubId) (a : Address) : Informs s (s.restart hub a) :=
  (hangUp s hub).trans (startConnect _ hub a)

theorem disconnectAll (s : Session) (hubs : List HubId) : Informs s (s.disconnectAll hubs) := by
  obtain ⟨link, h⟩ := disconnectAll_eq s hubs
  exact of_log (by rw [h])

theorem reconnectAll (s : Session) (hubs : List HubId) : Informs s (s.reconnectAll hubs).1 := by
  induction hubs generalizing s with
  | nil => exact of_log rfl
  | cons hub hubs ih =>
    unfold Session.reconnectAll
    split
    · next a ha => exact (restart s hub a).trans (ih _)
    · exact ih s

/-- An error is no information. -/
theorem not_error (s : Session) (text : String) : ¬ Informs s (s.error text) := by
  rintro ⟨new, hlog, hnew⟩
  obtain rfl : [⟨.error, text⟩] = new := List.append_cancel_left hlog
  have := hnew _ List.mem_cons_self
  cases this

end Informs

/-- Where no hub could be connected anew, nothing has been done. -/
theorem reconnectAll_none {hubs : List HubId} (h : (s.reconnectAll hubs).2 = 0) :
    (s.reconnectAll hubs).1 = s := by
  induction hubs with
  | nil => rfl
  | cons hub hubs ih =>
    unfold reconnectAll at h ⊢
    split at h
    · simp at h
    · exact ih h

/-- An address that was given is there when it is looked up; so if there is none, none was given. -/
theorem note_of_lost {hub : HubId} {address : Option Address} {text? : Option String}
    (reads : readAddress text? = .ok address)
    (noted : (s.note hub address).store.notedAddress? hub = none) : s.note hub address = s := by
  cases address with
  | none => rfl
  | some a =>
    obtain ⟨b, hb⟩ : ∃ b, (s.store.noteAddress hub a).notedAddress? hub = some b :=
      Store.notedAddress?_noteAddress (wellFormed_of_readAddress reads)
    exact absurd (noted.symm.trans hb) (by simp)

/-- A command informs, or it does no more than report an error, perhaps in a private chat that it
has opened. -/
theorem Outcome.reports (h : Outcome s c args t) : Informs s t ∨ (∃ text, t = s.error text) ∨
    (c = .msg ∧ ∃ hub u text, s.currentHub? = some hub ∧ u ∈ s.link.users hub ∧
      t = (s.focus (.chat hub u.uid u.name)).error text) := by
  cases h with
  | refused f => exact .inr (.inl ⟨_, rfl⟩)
  | unclosed => exact .inr (.inl ⟨_, rfl⟩)
  | unsent here user =>
    exact .inr (.inr ⟨rfl, _, _, _, here, List.mem_of_find?_eq_some user, rfl⟩)
  | lost tab idle reads noted =>
    rw [note_of_lost reads noted]
    exact .inr (.inl ⟨_, rfl⟩)
  | reconnectedNone tab none =>
    rw [reconnectAll_none none]
    exact .inr (.inl ⟨_, rfl⟩)
  | cleared | quit | said | told | approached | wrote | opened | closedChat =>
    exact .inl (.of_log rfl)
  | shown | disconnected | kicked | answered | assigned | unassigned | searched | granted
  | revoked | openedIdly | openedConnecting | connected => exact .inl ⟨[_], rfl, by simp⟩
  | disconnectedAll => exact .inl ((Informs.disconnectAll s _).trans (.info _ _))
  | reconnected => exact .inl (.restart s _ _)
  | reconnectedAll => exact .inl (.reconnectAll s _)
  | closedHub =>
    left
    exact (Informs.hangUp s _).trans (.of_log rfl)

/-- A line that reports an error reports nothing else and leaves all else as it was, except that
`msg` may have made a private chat the current tab. -/
theorem dispatch_error (s : Session) (line : String) :
    ∃ new, (s.dispatch line).log = s.log ++ new ∧ ∀ m ∈ new, m.level = .error →
      new = [m] ∧ (s.dispatch line).store = s.store ∧ (s.dispatch line).grants = s.grants ∧
      (s.dispatch line).quitting = s.quitting ∧ (s.dispatch line).clearing = s.clearing ∧
      (s.dispatch line).link = s.link ∧
      ((s.dispatch line).tabs = s.tabs ∨
        ∃ args, Command.Line.parse? line = some ⟨"msg", args⟩ ∧
          ∃ hub u, s.currentHub? = some hub ∧ u ∈ s.link.users hub ∧
            (s.dispatch line).tabs = s.tabs.focus (.chat hub u.uid u.name)) := by
  have hall : Informs s (s.dispatch line) ∨ (∃ text, s.dispatch line = s.error text) ∨
      ∃ args, Command.Line.parse? line = some ⟨"msg", args⟩ ∧
        ∃ hub u text, s.currentHub? = some hub ∧ u ∈ s.link.users hub ∧
          s.dispatch line = (s.focus (.chat hub u.uid u.name)).error text := by
    rcases dispatch_cases s line with ⟨-, h⟩ | ⟨-, -, f, -, -, h⟩ | ⟨c, args, hline, h⟩
    · exact .inl (.of_log (by rw [h]))
    · exact .inr (.inl ⟨_, h⟩)
    · refine h.reports.imp_right (Or.imp_right ?_)
      rintro ⟨rfl, htab⟩
      exact ⟨args, hline, htab⟩
  rcases hall with ⟨new, hlog, hnew⟩ | ⟨text, h⟩ | ⟨args, hline, hub, u, text, hhere, hu, h⟩
  · refine ⟨new, hlog, fun m hm herr => ?_⟩
    rw [hnew m hm] at herr
    cases herr
  · rw [h]
    refine ⟨[⟨.error, text⟩], rfl, fun m hm _ => ?_⟩
    rw [List.mem_singleton.1 hm]
    exact ⟨rfl, rfl, rfl, rfl, rfl, rfl, .inl rfl⟩
  · rw [h]
    refine ⟨[⟨.error, text⟩], rfl, fun m hm _ => ?_⟩
    rw [List.mem_singleton.1 hm]
    exact ⟨rfl, rfl, rfl, rfl, rfl, rfl, .inr ⟨args, hline, hub, u, hhere, hu, rfl⟩⟩

end HubConsole.Session
