import HubConsole.Address
import HubConsole.Setting.Store

/-! # Notes on hubs

The console notes the name of each hub that it knows, the address last used for it, and the
keyprint pinned for that address. -/

namespace HubConsole.Store
open Setting

/-- The address of a hub with its pinned keyprint. Only addresses over TLS have one. -/
def notedAddress? (s : Store) (hub : HubId) : Option Address := do
  let address ← (Address.parse (← s.get? hub hubAddress)).toOption
  if address.protocol.isTls then
    return { address with keyprint := (s.get? hub hubKeyprint).bind (Digest.parse? 32) }
  else return address

/-- Notes an address for a hub. A keyprint pinned for another endpoint is forgotten, unless the new
address has one itself. -/
def noteAddress (s : Store) (hub : HubId) (address : Address) : Store :=
  match address.keyprint with
  | some keyprint =>
    (s.set hub hubAddress address.canonical).set hub hubKeyprint keyprint.text
  | none =>
    let s := if s.get? hub hubAddress = some address.canonical then s else s.erase hub hubKeyprint
    s.set hub hubAddress address.canonical

def noteGiven (s : Store) (hub : HubId) : Option Address → Store
  | some a => s.noteAddress hub a
  | none => s

/-- The name of a hub, or one made of its id if none is noted. -/
def nameOfHub (s : Store) (hub : HubId) : String := (s.get? hub hubName).getD s!"hub{hub}"

/-- The hub of this name, with an id that nothing is stored under if the name is new. There is none
if all ids are taken. -/
def hubNamed? (s : Store) (name : String) : Option (Store × HubId) :=
  match s.findHub? name with
  | some hub => some (s, hub)
  | none => s.unusedHubId?.map fun hub => (s.set hub hubName name, hub)

def hubNames (s : Store) : List String := (s.hubs.map (·.2)).mergeSort fun a b => a ≤ b

end HubConsole.Store
