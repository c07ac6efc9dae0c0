import HubConsole.Address
import HubConsole.Grant
import HubConsole.Query

/-! # The link to hubs

What the console knows of hubs, and the requests that it makes of them. Requests only initiate
something: what comes of them shows later in the states of hubs and the lists of their users. -/

namespace HubConsole

structure User where
  uid : UserId
  name : String
  share : Count
  description : Option String
  isOperator : Bool
deriving DecidableEq, Repr

inductive LinkState where
  | idle
  | connecting
  | connected
deriving DecidableEq, Repr

inductive Request where
  | connect (hub : HubId) (address : Address)
  | disconnect (hub : HubId)
  /-- A message to all users of a hub; with `action` in the third person. -/
  | say (hub : HubId) (message : String) (action : Bool)
  | tell (hub : HubId) (uid : UserId) (message : String) (action : Bool)
  | search (hubs : List HubId) (query : Query)
  | kick (hub : HubId) (uid : UserId)
  | password (hub : HubId) (text : String)
deriving DecidableEq

/-- The states of hubs and their users, and the requests made so far. `onConnect` is the state that
a hub takes when a connection to it is requested. -/
structure Link where
  state : HubId → LinkState
  users : HubId → List User
  onConnect : HubId → LinkState
  requests : List Request

namespace Link

/-- A link without connections, on which hubs take the state `s` when a connection is requested. -/
def idle (s : LinkState) : Link := ⟨fun _ => .idle, fun _ => [], fun _ => s, []⟩

/-- The link of a console without a network: no connection is ever completed. -/
def offline : Link := idle .connecting

def setState (l : Link) (hub : HubId) (s : LinkState) : Link :=
  { l with state := fun h => if h = hub then s else l.state h }

def setUsers (l : Link) (hub : HubId) (us : List User) : Link :=
  { l with users := fun h => if h = hub then us else l.users h }

/-- Makes a request. Only requests to connect and to disconnect change a state, and only that of
their hub. -/
def send (l : Link) (r : Request) : Link :=
  let l := { l with requests := l.requests ++ [r] }
  match r with
  | .connect hub _ => l.setState hub (l.onConnect hub)
  | .disconnect hub => l.setState hub .idle
  | _ => l

def isConnected (l : Link) (hub : HubId) : Bool := l.state hub == .connected

def isIdle (l : Link) (hub : HubId) : Bool := l.state hub == .idle

def findUser? (l : Link) (hub : HubId) (name : String) : Option User :=
  (l.users hub).find? fun u => u.name == name

end Link
end HubConsole
