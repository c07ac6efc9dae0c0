import HubConsole.Session.Chat

/-! # Searching -/

namespace HubConsole.Session

def searched (s : Session) : SearchScope → Attempt (List HubId)
  | .currentHub => do
    match s.currentHub? with
    | none => throw .noHubToSearch
    | some hub =>
      s.checkConnected hub
      return [hub]
  | .allHubs =>
    match s.tabs.hubs.filter s.link.isConnected with
    | [] => throw .noConnection
    | hubs => pure hubs

def search (s : Session) (args : String) : Attempt Session := do
  match Query.parse args with
  | .error e => throw (.badQuery e)
  | .ok query =>
    let hubs ← s.searched query.scope
    return (s.request (.search hubs query)).info
      s!"Search for {query.text} sent to {hubs.length} hub(s)."

end HubConsole.Session
