import HubConsole.Proofs.Completion
import HubConsole.Proofs.Outcome

/-! # Messages are delivered or reported

A message from the current tab either makes one request or is reported as one error
(`Session.Delivered`), however it is put: after `/say`, as a line of its own, or after `/me`. In the
first two cases it is sent as it stands, in the third one trimmed (`messages_delivered`). -/

namespace HubConsole.Session
open Text

variable {s : Session} {message : String} {action : Bool}

/-- What sending a message from the current tab of `s` leaves: the request is made if the message
reaches someone, and else an error is reported. Nothing else is made, reported or changed. -/
structure Delivered (s : Session) (message : String) (action : Bool) (t : Session) : Prop where
  sent : ∀ r, s.Reaches message action r →
    t.link = { s.link with requests := s.link.requests ++ [r] } ∧ t.log = s.log
  reported : (∀ r, ¬ s.Reaches message action r) →
    t.link = s.link ∧ ∃ text, t.log = s.log ++ [⟨.error, text⟩]
  store : t.store = s.store
  grants : t.grants = s.grants
  tabs : t.tabs = s.tabs

/-- Messages do not change what is known of hubs. -/
theorem Reaches.send {r : Request} (h : s.Reaches message action r) :
    s.link.send r = { s.link with requests := s.link.requests ++ [r] } := by
  cases h <;> rfl

/-- A tab has one recipient at most. -/
theorem Reaches.unique {r r' : Request} (h : s.Reaches message action r)
    (h' : s.Reaches message action r') : r = r' := by
  cases h with
  | hub tab =>
    cases h' with
    | hub tab' =>
      cases tab.symm.trans tab'
      rfl
    | user tab' => cases tab.symm.trans tab'
  | user tab =>
    cases h' with
    | hub tab' => cases tab.symm.trans tab'
    | user tab' =>
      cases tab.symm.trans tab'
      rfl

theorem delivered_chat (h : isBlankText message = false) :
    Delivered s message action (s.settle (s.chat message action)) := by
  cases hchat : s.chat message action with
  | ok t =>
    obtain ⟨-, r, hr, rfl⟩ := chat_eq_ok_iff.1 hchat
    refine ⟨fun r' hr' => ?_, fun hnone => absurd hr (hnone r), rfl, rfl, rfl⟩
    obtain rfl := hr'.unique hr
    exact ⟨hr.send, rfl⟩
  | error f =>
    refine ⟨fun r hr => ?_, fun _ => ⟨rfl, f.message, rfl⟩, rfl, rfl, rfl⟩
    rw [chat_eq_ok_iff.2 ⟨h, r, hr, rfl⟩] at hchat
    cases hchat

theorem isBlankText_trimmed (text : String) : isBlankText (trimmed text) = isBlankText text := by
  rw [isBlankText, isBlankText, toList_trimmed, all_isBlank_trim]

/-- A text that is not blank is delivered as it stands after `/say`, and also as a line of its own
unless that starts with a slash; after `/me` it is delivered trimmed, in the third person. -/
theorem messages_delivered (s : Session) {m : String} (text : ∃ c ∈ m.toList, isBlank c = false) :
    Delivered s m false (s.dispatch ("/say " ++ m)) ∧
    ((m.toList.find? fun c => !isBlank c) ≠ some '/' → Delivered s m false (s.dispatch m)) ∧
    Delivered s (trimmed m) true (s.dispatch ("/me " ++ m)) := by
  have hm : isBlankText m = false := by simpa [isBlankText] using text
  have hsay : ∀ {line}, Command.Line.parse? line = some ⟨Command.say.name, m⟩ →
      Delivered s m false (s.dispatch line) := by
    intro line hline
    rw [dispatch_of_parse? hline]
    exact delivered_chat hm
  refine ⟨hsay (Command.Line.proper_chat m).parse?_explicit, fun hslash => hsay ?_, ?_⟩
  · obtain ⟨c, hc, hblank⟩ := text
    obtain ⟨d, hfirst⟩ : ∃ d, (m.toList.find? fun c => !isBlank c) = some d :=
      Option.isSome_iff_exists.1 (List.find?_isSome.2 ⟨c, hc, by simp [hblank]⟩)
    refine Command.Line.parse?_chat ((head?_trimStart_eq _).trans hfirst) fun hd => hslash ?_
    rw [hfirst, hd]
  · have hme : s.dispatch ("/me " ++ m) = s.settle (s.chat (trimmed m) true) :=
      Command.dispatch_line (c := .me) (by decide)
    rw [hme]
    exact delivered_chat (by rw [isBlankText_trimmed, hm])

theorem messages_delivered_blanks :
    let s := (new (.empty "/") (Link.offline.setState 1 .connected)).focus (.hub 1)
    let m := "  hi  /quit "
    (∃ c ∈ m.toList, isBlank c = false) ∧
      (s.dispatch ("/say " ++ m)).link.requests = [.say 1 "  hi  /quit " false] ∧
      (s.dispatch m).link.requests = [.say 1 "  hi  /quit " false] ∧
      (s.dispatch ("/me " ++ m)).link.requests = [.say 1 "hi  /quit" true] := by
  intro s m
  have htext : ∃ c ∈ m.toList, isBlank c = false := ⟨'h', by decide, by decide⟩
  obtain ⟨hsay, hplain, hme⟩ := messages_delivered s htext
  have hsent : ∀ {message action t}, Delivered s message action t →
      t.link.requests = [.say 1 message action] := by
    intro message action t h
    have hreaches : s.Reaches message action (.say 1 message action) :=
      .hub (by decide) (by decide)
    rw [(h.sent _ hreaches).1]
    rfl
  have htrimmed : trimmed m = "hi  /quit" := by decide
  exact ⟨htext, hsent hsay, hsent (hplain (by decide)), htrimmed ▸ hsent hme⟩

end HubConsole.Session
