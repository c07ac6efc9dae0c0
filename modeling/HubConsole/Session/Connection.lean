import HubConsole.Session.Chat

/-! # Opening and connecting hubs -/

namespace HubConsole.Session
open Text

def startConnect (s : Session) (hub : HubId) (address : Address) : Session :=
  (s.info s!"Connecting to {address.canonical}...").request (.connect hub address)

def hangUp (s : Session) (hub : HubId) : Session :=
  if s.link.isIdle hub then s else s.request (.disconnect hub)

/-- Requests a new connection to a hub, after the end of a present one. -/
def restart (s : Session) (hub : HubId) (address : Address) : Session :=
  (s.hangUp hub).startConnect hub address

/-- Opens the tab of a hub that is to be connected from the start, and connects it. -/
def connectMarked (s : Session) (hub : HubId) : Session :=
  match if s.store.flag (.hub hub) "autoconnect" then s.store.notedAddress? hub else none with
  | some address => { s with tabs := s.tabs.add (.hub hub) }.startConnect hub address
  | none => s

/-- Connects all hubs that are to be connected from the start. The current tab stays. -/
def autoconnect (s : Session) : Session := s.store.hubIds.foldl connectMarked s

def isHubNameChar (c : Char) : Bool := c.isAlphanum || c == '_' || c == '.' || c == '-'

def isHubName (name : String) : Bool :=
  let cs := name.toList
  1 ≤ cs.length && cs.length ≤ 25 && cs.all isHubNameChar

def readAddress : Option String → Attempt (Option Address)
  | none => pure none
  | some text => match Address.parse text with
    | .ok address => pure (some address)
    | .error e => throw (.badAddress e)

structure Opening where
  connects : Bool
  name : String
  address : Option Address

/-- Reads `[-n] name [address]`. -/
def Opening.parse (args : String) : Attempt Opening := do
  let given := (words args.toList).map String.ofList
  let rest := if given.head? == some "-n" then given.tail else given
  let (name, address?) ← match rest with
    | [] => throw .missingHubName
    | [name] => pure (name, none)
    | [name, address] => pure (name, some address)
    | _ => throw .tooManyArguments
  if !isHubName name then throw .badHubName
  return ⟨given.head? != some "-n", name, ← readAddress address?⟩

def note (s : Session) (hub : HubId) (address : Option Address) : Session :=
  { s with store := s.store.noteGiven hub address }

def enter (s : Session) (hub : HubId) (address : Option Address) : Session :=
  (s.focus (.hub hub)).note hub address

def connectOpened (s : Session) (hub : HubId) (address : Option Address) : Session :=
  if s.link.isIdle hub then
    match s.store.notedAddress? hub with
    | some a => s.startConnect hub a
    | none => s.info Failure.noAddress.message
  else if address.isSome then
    s.info "Already connected, use /reconnect to connect to the new address."
  else s

def openHub (s : Session) (o : Opening) : Attempt Session :=
  match s.store.hubNamed? o.name with
  | none => throw .noHubId
  | some (store, hub) =>
    let s := { s with store }.enter hub o.address
    return if o.connects then s.connectOpened hub o.address else s

/-- Connects the hub of the current tab, to a new address if one is given. The address is noted
before it is looked up. -/
def connect (s : Session) (args : String) : Attempt Session := do
  let hub ← s.ownHub
  if !s.link.isIdle hub then throw .notIdle
  let address ← readAddress (if args == "" then none else some args)
  let s := s.note hub address
  match s.store.notedAddress? hub with
  | some a => return s.startConnect hub a
  | none => return s.error Failure.noAddress.message

def disconnectAll (s : Session) (hubs : List HubId) : Session :=
  hubs.foldl (fun s hub => s.request (.disconnect hub)) s

/-- Ends the connection to the hub of the current tab, or all of them on the main tab. -/
def disconnect (s : Session) : Attempt Session :=
  match s.tabs.current with
  | .main =>
    let active := s.tabs.hubs.filter fun hub => !s.link.isIdle hub
    if active.isEmpty then throw .noConnection
    else return (s.disconnectAll active).info s!"Disconnected from {active.length} hub(s)."
  | .hub hub =>
    if s.link.isIdle hub then throw .notConnected
    else return (s.request (.disconnect hub)).info "Disconnected."
  | .chat .. => throw .needsMainOrHubTab

/-- Connects hubs anew, one after the other, as far as their addresses are noted. The number tells
how many. -/
def reconnectAll (s : Session) : List HubId → Session × Nat
  | [] => (s, 0)
  | hub :: hubs =>
    match s.store.notedAddress? hub with
    | some address =>
      let (s, count) := (s.restart hub address).reconnectAll hubs
      (s, count + 1)
    | none => s.reconnectAll hubs

/-- Connects the hub of the current tab anew, or all open hubs on the main tab. -/
def reconnect (s : Session) : Attempt Session :=
  match s.tabs.current with
  | .main =>
    let (s, count) := s.reconnectAll s.tabs.hubs
    return if count = 0 then s.error Failure.noOpenHub.message else s
  | .hub hub =>
    match s.store.notedAddress? hub with
    | some address => return s.restart hub address
    | none => throw .noAddress
  | .chat .. => throw .needsMainOrHubTab

/-- Closes the current tab, after the end of the connection if it is a hub's own. -/
def close (s : Session) : Session :=
  let s := match s.tabs.current with
    | .hub hub => s.hangUp hub
    | _ => s
  match s.tabs.close? with
  | some (tabs, _) => { s with tabs }
  | none => s.error Failure.mainTab.message

def password (s : Session) (text : String) : Attempt Session := do
  let hub ← s.ownHub
  if text == "" then throw .missingPassword
  if s.link.isIdle hub then throw .notConnected
  return (s.request (.password hub text)).info "Password sent."

end HubConsole.Session
