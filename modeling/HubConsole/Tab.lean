import HubConsole.Grant

/-! # Tabs

The main tab, a tab for each open hub, and tabs for private chats. One of them is the current
one. -/

namespace HubConsole

inductive Tab where
  | main
  | hub (id : HubId)
  | chat (hub : HubId) (uid : UserId) (nick : String)
deriving DecidableEq, Repr

namespace Tab

def hub? : Tab → Option HubId
  | main => none
  | hub id => some id
  | chat id _ _ => some id

/-- The hub whose own tab this is. -/
def ownHub? : Tab → Option HubId
  | hub id => some id
  | _ => none

end Tab

structure Tabs where
  all : List Tab
  position : Nat
deriving DecidableEq, Repr

namespace Tabs

def start : Tabs := ⟨[.main], 0⟩

def current (ts : Tabs) : Tab := ts.all.getD ts.position .main

/-- The hubs with a tab of their own, from left to right. -/
def hubs (ts : Tabs) : List HubId := ts.all.filterMap Tab.ownHub?

/-- Adds a tab on the right unless it is there already. The current tab stays. -/
def add (ts : Tabs) (t : Tab) : Tabs :=
  if t ∈ ts.all then ts else { ts with all := ts.all ++ [t] }

def indexOf (ts : Tabs) (t : Tab) : Nat := ts.all.idxOf t

/-- Makes a tab the current one, adding it first if it is not there. -/
def focus (ts : Tabs) (t : Tab) : Tabs :=
  let ts := ts.add t
  { ts with position := ts.indexOf t }

def focusNext (ts : Tabs) : Tabs := { ts with position := (ts.position + 1) % ts.all.length }

def focusPrevious (ts : Tabs) : Tabs :=
  { ts with position := (ts.position + ts.all.length - 1) % ts.all.length }

/-- Makes the tab on the left of the current position current among the tabs `kept`. -/
def keep (ts : Tabs) (kept : List Tab) : Tabs :=
  ⟨kept, min (ts.position - 1) (kept.length - 1)⟩

/-- Closes the current tab, and the private chats of its hub if it is a hub's own. The main tab
stays open. -/
def close? (ts : Tabs) : Option (Tabs × Tab) :=
  match ts.current with
  | .main => none
  | .hub id => some (ts.keep (ts.all.filter fun t => t.hub? != some id), .hub id)
  | .chat id uid nick => some (ts.keep (ts.all.eraseIdx ts.position), .chat id uid nick)

end Tabs
end HubConsole
