import HubConsole.Session.Basic
import HubConsole.Session.Failure
import HubConsole.Text.Blank

/-! # Chatting

Messages go to the hub or the user of the current tab, as they were typed. -/

namespace HubConsole.Session
open Text

/-- The hub of the current tab, if it is a hub's own. -/
def ownHub (s : Session) : Attempt HubId :=
  match s.tabs.current with
  | .hub id => pure id
  | _ => throw .needsHubTab

/-- The hub that the current tab belongs to. -/
def anyHub (s : Session) : Attempt HubId :=
  match s.currentHub? with
  | some id => pure id
  | none => throw .needsHubOrUserTab

def checkConnected (s : Session) (hub : HubId) : Attempt Unit :=
  if s.link.isConnected hub then pure () else throw .notConnected

def findUser (s : Session) (hub : HubId) (name : String) : Attempt User :=
  match s.link.findUser? hub name with
  | some u => pure u
  | none => throw (.userNotFound name)

def isBlankText (text : String) : Bool := text.toList.all isBlank

def chat (s : Session) (message : String) (action : Bool) : Attempt Session := do
  if isBlankText message then throw .emptyMessage
  match s.tabs.current with
  | .main => throw .needsHubOrUserTab
  | .hub hub =>
    s.checkConnected hub
    return s.request (.say hub message action)
  | .chat hub uid nick =>
    s.checkConnected hub
    if (s.link.users hub).any fun u => u.uid == uid then
      return s.request (.tell hub uid message action)
    else throw (.userOffline nick)

/-- Opens a private chat with a user and sends a message there, if there is one. The tab stays open
even if the message cannot be sent. -/
def tell (s : Session) (name message : String) : Attempt Session := do
  let hub ← s.anyHub
  if name == "" then throw (.missingUser "msg")
  let user ← s.findUser hub name
  let s := s.focus (.chat hub user.uid user.name)
  if isBlankText message then return s
  match s.chat message false with
  | .ok s => return s
  | .error e => return s.error e.message

end HubConsole.Session
