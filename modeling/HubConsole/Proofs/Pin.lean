import HubConsole.Proofs.Notes
import HubConsole.Proofs.Requests

/-! # Pinned keyprints

Hubs are connected to the address that was accepted last for them, and with the keyprint that was
given last since then the address has named the same endpoint (`connects_as_accepted`). The notes on
a hub amount to just that (`noted_after`). -/

namespace HubConsole
open Setting

namespace Address
variable {a b : Address} {as : List Address}

/-- The keyprint given last among the addresses at the front that name this endpoint. -/
def keyprintFor? (endpoint : Protocol × String × Nat) (as : List Address) : Option Keyprint :=
  (as.takeWhile fun a => a.endpoint = endpoint).findSome? (·.keyprint)

/-- The address to connect to after those that were accepted, the last one first: that one, with the
keyprint given last since the same endpoint has been named without a break. -/
def current? : List Address → Option Address
  | [] => none
  | a :: before => some { a with keyprint := keyprintFor? a.endpoint (a :: before) }

theorem keyprintFor?_cons (endpoint : Protocol × String × Nat) : keyprintFor? endpoint (a :: as) =
    if a.endpoint = endpoint then a.keyprint.or (keyprintFor? endpoint as) else none := by
  unfold keyprintFor?
  split
  · next h =>
    rw [List.takeWhile_cons_of_pos (by simpa using h), List.findSome?_cons]
    cases a.keyprint <;> rfl
  · next h =>
    rw [List.takeWhile_cons_of_neg (by simpa using h)]
    rfl

theorem current?_cons : current? (a :: as) = some (a.pinnedAfter (current? as)) := by
  rw [current?, keyprintFor?_cons, if_pos rfl, pinnedAfter]
  cases as with
  | nil => rfl
  | cons b as =>
    by_cases hend : b.endpoint = a.endpoint
    · have hkeep : (current? (b :: as)).filter (·.endpoint = a.endpoint) = current? (b :: as) :=
        Option.filter_some_pos (by simpa [endpoint] using hend)
      rw [hkeep, current?, hend]
      rfl
    · have hdrop : (current? (b :: as)).filter (·.endpoint = a.endpoint) = none :=
        Option.filter_some_neg (by simpa [endpoint] using hend)
      rw [hdrop, keyprintFor?_cons, if_neg hend]
      rfl

/-- A keyprint is used only where it was given for the same endpoint. -/
theorem given_of_current? {k : Keyprint} (h : current? as = some a) (hk : a.keyprint = some k) :
    ∃ b ∈ as, b.endpoint = a.endpoint ∧ b.keyprint = some k := by
  cases as with
  | nil => simp [current?] at h
  | cons c as =>
    obtain rfl := Option.some.inj h
    obtain ⟨b, hb, hkey⟩ := List.exists_of_findSome?_eq_some hk
    have hend : b.endpoint = c.endpoint := by simpa using List.mem_takeWhile_imp hb
    exact ⟨b, (List.takeWhile_prefix _).subset hb, hend, hkey⟩

/-- With the same endpoint a keyprint stays until another one is given. -/
theorem keyprint_of_current?_cons {c : Address} (h : current? as = some c)
    (hb : current? (a :: as) = some b) (hend : c.endpoint = b.endpoint) :
    b.keyprint = a.keyprint.or c.keyprint := by
  rw [current?_cons, h] at hb
  obtain rfl := Option.some.inj hb
  have hend' : c.endpoint = a.endpoint := hend
  simp [pinnedAfter, Option.filter_some, hend']

-- the port has not changed since the keyprint was given; with another port it does not count
example (k : Keyprint) : current? [⟨.adcs, "h", 1, none⟩, ⟨.adcs, "h", 1, some k⟩] =
    some ⟨.adcs, "h", 1, some k⟩ := by rfl

example (k : Keyprint) : current? [⟨.adcs, "h", 2, none⟩, ⟨.adcs, "h", 1, some k⟩] =
    some ⟨.adcs, "h", 2, none⟩ := by rfl

end Address

namespace Session

/-- The address that a command notes and its hub: one that is given when a hub is opened or
connected, and accepted. -/
def acceptedBy (s : Session) (args : String) : Command → Option (HubId × Address)
  | .openHub => do
    let o ← (Opening.parse args).toOption
    let (_, hub) ← s.store.hubNamed? o.name
    return (hub, ← o.address)
  | .connect => do
    let hub ← s.ownHub.toOption
    if !s.link.isIdle hub then none
    let address ← (readAddress (if args == "" then none else some args)).toOption
    return (hub, ← address)
  | _ => none

/-- The address that a line notes and its hub. -/
def accepted? (s : Session) (line : String) : Option (HubId × Address) := do
  let l ← Command.Line.parse? line
  s.acceptedBy l.args (← Command.ofName? l.name)

/-- The address that is accepted for a hub at an event. -/
def acceptedAt (s : Session) (hub : HubId) : Event → Option Address
  | .act (.line line) => ((s.accepted? line).filter (·.1 = hub)).map (·.2)
  | _ => none

/-- All addresses that are accepted for a hub in a run, the last one first. -/
def accepted (s : Session) (hub : HubId) : List Event → List Address
  | [] => []
  | e :: es => (s.step e).accepted hub es ++ (s.acceptedAt hub e).toList

variable {s t : Session} {hub : HubId} {a? : Option Address} {c : Command} {args line : String}

theorem accepted_append (es : List Event) (e : Event) : s.accepted hub (es ++ [e]) =
    ((s.after es).acceptedAt hub e).toList ++ s.accepted hub es := by
  induction es generalizing s with
  | nil => simp [accepted, after]
  | cons f es ih =>
    rw [List.cons_append, accepted, ih, accepted, List.append_assoc]
    rfl

theorem acceptedBy_openHub {o : Opening} {store : Store} (reads : Opening.parse args = .ok o)
    (named : s.store.hubNamed? o.name = some (store, hub)) :
    s.acceptedBy args .openHub = o.address.map fun a => (hub, a) := by
  cases ha : o.address <;> simp [acceptedBy, reads, named, ha, Except.toOption]

theorem acceptedBy_connect {address : Option Address} (tab : s.tabs.current = .hub hub)
    (idle : s.link.isIdle hub = true)
    (reads : readAddress (if args == "" then none else some args) = .ok address) :
    s.acceptedBy args .connect = address.map fun a => (hub, a) := by
  have hown : s.ownHub = .ok hub := ownHub_eq_ok_iff.2 tab
  simp only [acceptedBy, reads]
  cases address <;> simp [hown, idle, Except.toOption]

/-- A command that fails accepts no address. -/
theorem acceptedBy_of_error {f : Failure} (h : c.run s args = .error f) :
    s.acceptedBy args c = none := by
  cases c with
  | openHub =>
    cases hread : Opening.parse args with
    | error e => simp [acceptedBy, hread, Except.toOption]
    | ok o =>
      cases hnamed : s.store.hubNamed? o.name with
      | none => simp [acceptedBy, hread, hnamed, Except.toOption]
      | some p => simp [Command.run, hread, openHub, hnamed, bind, Except.bind, pure, Except.pure] at h
  | connect =>
    cases hown : s.ownHub with
    | error e => simp [acceptedBy, hown, Except.toOption]
    | ok hub =>
      cases hidle : s.link.isIdle hub with
      | false => simp [acceptedBy, hown, hidle, Except.toOption]
      | true =>
        cases hread : readAddress (if args == "" then none else some args) with
        | error e =>
          simp only [acceptedBy, hread]
          simp [Except.toOption]
        | ok address =>
          simp only [Command.run, connect, hown, hidle, hread, bind, Except.bind, pure, Except.pure,
            Bool.not_true, Bool.false_eq_true, if_false] at h
          split at h <;> cases h
  | _ => rfl

/-- A command leaves all notes as they are but for the address that it accepts. -/
theorem StoreOutcome.notes {store : Store} (h : StoreOutcome s c args store) :
    (s.acceptedBy args c = none ∧ ∀ hub a?, s.store.Noted hub a? → store.Noted hub a?) ∨
    ∃ u k a, s.acceptedBy args c = some (k, a) ∧ a.WellFormed ∧ store = u.noteAddress k a ∧
      ∀ hub a?, s.store.Noted hub a? → Store.Noted u hub a? := by
  cases h with
  | kept idle =>
    refine .inl ⟨?_, fun _ _ h => h⟩
    rcases idle with ⟨hopen, hconn⟩ | ⟨f, hf⟩
    · cases c <;> first | rfl | contradiction
    · exact acceptedBy_of_error hf
  | assigned here trimmed nonempty assign => exact .inl ⟨rfl, fun _ _ h => h.assign assign⟩
  | unassigned here clear => exact .inl ⟨rfl, fun _ _ h => h.clear clear⟩
  | @opened _ o u k reads named =>
    have hby := acceptedBy_openHub reads named
    have hkeep : ∀ hub a?, s.store.Noted hub a? → u.Noted hub a? := fun _ _ h => h.hubNamed? named
    cases ha : o.address with
    | none => exact .inl ⟨by rw [hby, ha]; rfl, hkeep⟩
    | some a =>
      have hw : a.WellFormed := (Opening.parse_spec reads).2 a ha
      exact .inr ⟨u, k, a, by rw [hby, ha]; rfl, hw, rfl, hkeep⟩
  | @connected _ k address tab idle reads =>
    have hby := acceptedBy_connect tab idle reads
    cases address with
    | none => exact .inl ⟨hby, fun _ _ h => h⟩
    | some a => exact .inr ⟨s.store, k, a, hby, wellFormed_of_readAddress reads, rfl, fun _ _ h => h⟩

/-- A line keeps the notes on every hub in step with the addresses accepted for it. -/
theorem noted_dispatch {as : List Address} (h : s.store.Noted hub (Address.current? as)) :
    (s.dispatch line).store.Noted hub
      (Address.current? ((s.acceptedAt hub (.act (.line line))).toList ++ as)) := by
  have keep : s.accepted? line = none → (s.acceptedAt hub (.act (.line line))).toList ++ as = as := by
    intro hnone
    simp [acceptedAt, hnone]
  rcases dispatch_cases s line with ⟨hline, heq⟩ | ⟨name, args, f, hline, hname, heq⟩ |
      ⟨c, args, hline, hout⟩
  · rw [heq, keep (by simp [accepted?, hline])]
    exact h
  · rw [heq, keep (by simp [accepted?, hline, hname])]
    exact h
  · have hby : s.accepted? line = s.acceptedBy args c := by
      simp [accepted?, hline, Command.ofName?_name]
    rcases hout.store.notes with ⟨hnone, hkeep⟩ | ⟨u, k, a, hsome, ha, hstore, hkeep⟩
    · rw [keep (hby.trans hnone)]
      exact hkeep _ _ h
    · rw [hstore]
      by_cases hk : k = hub
      · subst hk
        have hat : s.acceptedAt k (.act (.line line)) = some a := by
          simp [acceptedAt, hby, hsome, Option.filter_some]
        rw [hat]
        show (u.noteAddress k a).Noted k (Address.current? (a :: as))
        rw [Address.current?_cons]
        exact (hkeep _ _ h).noteAddress ha
      · have hat : s.acceptedAt hub (.act (.line line)) = none := by
          simp [acceptedAt, hby, hsome, Option.filter_some, hk]
        rw [hat]
        exact (hkeep _ _ h).noteAddress_of_ne (Ne.symm hk)

theorem noted_step {as : List Address} {e : Event} (h : s.store.Noted hub (Address.current? as)) :
    (s.step e).store.Noted hub (Address.current? ((s.acceptedAt hub e).toList ++ as)) := by
  cases e with
  | act a =>
    cases a with
    | line line => exact noted_dispatch h
    | autoconnect =>
      show s.autoconnect.store.Noted hub (Address.current? as)
      rw [store_autoconnect]
      exact h
    | next => exact h
    | previous => exact h
  | world => exact h

/-- All through a run the notes on a hub amount to the addresses accepted for it. -/
theorem noted_after {as : List Address} (es : List Event)
    (h : s.store.Noted hub (Address.current? as)) :
    (s.after es).store.Noted hub (Address.current? (s.accepted hub es ++ as)) := by
  induction es generalizing s as with
  | nil => exact h
  | cons e es ih =>
    rw [accepted, List.append_assoc]
    exact ih (noted_step h)

/-- An act connects hubs only to the addresses that are noted for them then. -/
theorem connects_as_noted {a : Act} (hd : s.tabs.Distinct) :
    ∃ rs, (s.act a).link.requests = s.link.requests ++ rs ∧
      ∀ hub b, .connect hub b ∈ rs → (s.act a).store.notedAddress? hub = some b := by
  have hrs : ∃ rs, Link.Takes (fun _ r => ∀ hub b, r = .connect hub b →
      (s.act a).store.notedAddress? hub = some b) s.link rs (s.act a).link := by
    cases a with
    | line line =>
      obtain ⟨rs, hrs⟩ := takes_dispatch line hd
      refine ⟨rs, hrs.mono ?_⟩
      rintro l _ hp hub b rfl
      exact hp.2
    | autoconnect =>
      refine takes_autoconnect fun l k c hc _ => ?_
      rintro hub b ⟨⟩
      rwa [act, store_autoconnect]
    | next => exact ⟨[], .nil⟩
    | previous => exact ⟨[], .nil⟩
  obtain ⟨rs, hrs⟩ := hrs
  refine ⟨rs, hrs.requests_eq, fun hub b hb => ?_⟩
  obtain ⟨l, hl⟩ := hrs.exists_of_mem hb
  exact hl hub b rfl

/-- In a run that starts without settings every connection is made to the address accepted last for
the hub, with the keyprint given last for that endpoint; so no keyprint is used that was not given
for the endpoint, and none is lost while the endpoint stays. -/
theorem connects_as_accepted (home : String) (link : Link) (es : List Event) (a : Act) :
    ∃ rs, (((new (.empty home) link).after es).act a).link.requests =
        ((new (.empty home) link).after es).link.requests ++ rs ∧
      ∀ hub b, .connect hub b ∈ rs →
        Address.current? ((new (.empty home) link).accepted hub (es ++ [.act a])) = some b ∧
        (∀ k, b.keyprint = some k → ∃ c ∈ (new (.empty home) link).accepted hub (es ++ [.act a]),
          c.endpoint = b.endpoint ∧ c.keyprint = some k) ∧
        ∀ c, Address.current? ((new (.empty home) link).accepted hub es) = some c →
          c.endpoint = b.endpoint → c.keyprint ≠ none → b.keyprint ≠ none := by
  obtain ⟨rs, hrs, hnoted⟩ := connects_as_noted (a := a) (distinct_after es)
  refine ⟨rs, hrs, fun hub b hb => ?_⟩
  have hbefore : ((new (.empty home) link).after es).store.Noted hub
      (Address.current? ((new (.empty home) link).accepted hub es)) := by
    have hstart : (new (.empty home) link).store.Noted hub (Address.current? []) :=
      Store.noted_empty home hub
    simpa using noted_after es hstart
  have hafter : (((new (.empty home) link).after es).act a).store.Noted hub
      (Address.current? ((new (.empty home) link).accepted hub (es ++ [.act a]))) := by
    rw [accepted_append]
    exact noted_step (e := .act a) hbefore
  have hcur := hafter.notedAddress?.symm.trans (hnoted hub b hb)
  refine ⟨hcur, fun k hk => Address.given_of_current? hcur hk, fun c hc hend hpin => ?_⟩
  rw [accepted_append] at hcur
  cases hat : ((new (.empty home) link).after es).acceptedAt hub (.act a) with
  | none =>
    have hsame : c = b := by simpa [hat, hc] using hcur
    exact hsame ▸ hpin
  | some given =>
    rw [hat] at hcur
    rw [Address.keyprint_of_current?_cons hc hcur hend]
    exact fun hnone => hpin (Option.or_eq_none_iff.1 hnone).2

end Session
end HubConsole
