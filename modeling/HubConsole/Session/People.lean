import HubConsole.Session.Chat
import HubConsole.Size

/-! # Dealing with users

Kicking users, looking them up, and granting them slots. -/

namespace HubConsole.Session
open Text

def kick (s : Session) (name : String) : Attempt Session := do
  let hub ← s.ownHub
  s.checkConnected hub
  if name == "" then throw (.missingUser none)
  let user ← s.findUser hub name
  return (s.request (.kick hub user.uid)).info s!"Kick request for {user.name} sent."

def portrait (u : User) : List String :=
  [s!"User:        {u.name}", s!"Id:          {idText u.uid}",
    s!"Share:       {Size.text u.share}"]
  ++ (match u.description with
    | some d => [s!"Description: {d}"]
    | none => [])
  ++ (if u.isOperator then ["Operator:    yes"] else [])

/-- The name of the user that is asked about: the one given, or the other side of a private chat. -/
def askedUser (s : Session) (name : String) : Attempt String :=
  if name != "" then pure name
  else match s.tabs.current with
    | .chat _ _ nick => pure nick
    | _ => throw (.missingUser none)

def whois (s : Session) (name : String) : Attempt Session := do
  let hub ← s.anyHub
  let user ← s.findUser hub (← s.askedUser name)
  return s.info (joinWith "\n" (portrait user))

def listGrants (s : Session) : Session :=
  match s.grants.entries with
  | [] => s.info "No slots granted."
  | gs => s.info (joinWith "\n" (gs.map fun g =>
      s!"{idText g.uid} {g.name} on #{s.store.nameOfHub g.hub}"))

/-- Grants a slot to a user of the hub of the current tab; without a name, lists the grants. -/
def grant (s : Session) (name : String) : Attempt Session := do
  if name == "" then return s.listGrants
  let hub ← s.anyHub
  let user ← s.findUser hub name
  match s.grants.add? hub user.uid user.name with
  | some grants => return { s with grants }.info s!"Slot granted to {user.name}."
  | none => return s.info s!"{user.name} already has a granted slot."

def ungrant (s : Session) (query : String) : Attempt Session := do
  if query == "" then throw (.missingUser "ungrant")
  match s.grants.revoke query with
  | .ok (grants, g) => return { s with grants }.info s!"Slot revoked from {g.name}."
  | .error e => throw (.badGrant e)

end HubConsole.Session
