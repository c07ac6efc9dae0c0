import HubConsole.Link
import HubConsole.Log
import HubConsole.Setting.Notes
import HubConsole.Tab

/-! # Sessions

What the console works on between one line and the next: settings, grants, the link to the hubs,
tabs, and messages that wait to be shown. -/

namespace HubConsole

structure Session where
  store : Store
  grants : Grants
  link : Link
  tabs : Tabs
  /-- Messages not yet shown, oldest first. -/
  log : List Message
  quitting : Bool
  clearing : Bool

namespace Session

def new (store : Store) (link : Link) : Session := ⟨store, .empty, link, .start, [], false, false⟩

def info (s : Session) (text : String) : Session := { s with log := s.log ++ [⟨.info, text⟩] }

def error (s : Session) (text : String) : Session := { s with log := s.log ++ [⟨.error, text⟩] }

def request (s : Session) (r : Request) : Session := { s with link := s.link.send r }

def currentHub? (s : Session) : Option HubId := s.tabs.current.hub?

def scope (s : Session) : Scope :=
  match s.currentHub? with
  | none => .global
  | some hub => .hub hub

def title (s : Session) : Tab → String
  | .main => "main"
  | .hub id => "#" ++ s.store.nameOfHub id
  | .chat _ _ nick => "~" ++ nick

def focus (s : Session) (t : Tab) : Session := { s with tabs := s.tabs.focus t }

def focusNext (s : Session) : Session := { s with tabs := s.tabs.focusNext }

def focusPrevious (s : Session) : Session := { s with tabs := s.tabs.focusPrevious }

end Session
end HubConsole
