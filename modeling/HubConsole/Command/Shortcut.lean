/-! # Key bindings

The keys of the line editor, for the help. -/

namespace HubConsole

inductive KeySection where
  | tabs
  | editing
  | completion
deriving DecidableEq, Repr

namespace KeySection

def all : List KeySection := [tabs, editing, completion]

def name : KeySection → String
  | tabs => "tabs"
  | editing => "editing"
  | completion => "completion"

def title : KeySection → String
  | tabs => "Switching tabs"
  | editing => "Editing the input line"
  | completion => "Tab completion"

def ofName? (s : String) : Option KeySection := all.find? fun k => k.name == s

end KeySection

structure Shortcut where
  key : String
  description : String
  group : KeySection
deriving DecidableEq, Repr

namespace Shortcut

def all : List Shortcut := [
  ⟨"Alt+Left", "Switch to the previous tab", .tabs⟩,
  ⟨"Alt+Right", "Switch to the next tab", .tabs⟩,
  ⟨"Enter", "Send the line or run the command", .editing⟩,
  ⟨"Up", "Previous line from history", .editing⟩,
  ⟨"Down", "Next line from history", .editing⟩,
  ⟨"Ctrl+A", "Move to the start of the line", .editing⟩,
  ⟨"Ctrl+E", "Move to the end of the line", .editing⟩,
  ⟨"Ctrl+W", "Delete the word before the cursor", .editing⟩,
  ⟨"Ctrl+K", "Delete everything after the cursor", .editing⟩,
  ⟨"Ctrl+L", "Clear the screen", .editing⟩,
  ⟨"Ctrl+D", "Quit on an empty line", .editing⟩,
  ⟨"Tab", "Complete commands, settings and nicks", .completion⟩,
  ⟨"Tab/Right", "Select the next completion", .completion⟩,
  ⟨"Shift+Tab/Left", "Select the previous completion", .completion⟩,
  ⟨"Esc", "Close the completion menu", .completion⟩]

end Shortcut

def KeySection.shortcuts (k : KeySection) : List Shortcut :=
  Shortcut.all.filter fun s => s.group = k

end HubConsole
