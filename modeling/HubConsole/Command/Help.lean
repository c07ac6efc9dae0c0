import HubConsole.Command.Registry
import HubConsole.Command.Shortcut
import HubConsole.Setting.Definition
import HubConsole.Text.Lines

/-! # Help pages

The pages of the help, as lists of lines. -/

namespace HubConsole.Command.Help
open Text

/-- Commands by category. The categories stand in no particular order. -/
abbrev Table := List (Category × List Doc)

/-- Puts a command after the others of its category. -/
def enter (table : Table) (d : Doc) : Table :=
  match table with
  | [] => [(d.category, [d])]
  | (c, ds) :: rest => if c = d.category then (c, ds ++ [d]) :: rest else (c, ds) :: enter rest d

def byCategory (docs : List Doc) : Table := docs.foldl enter []

def entry (d : Doc) : String := s!"    /{padRight 12 d.name} {d.summary}"

/-- The commands of one category under its heading. -/
def group (c : Category) (docs : List Doc) : List String :=
  "" :: s!"  {c.heading}" :: docs.map entry

/-- The categories of a table in their order. -/
def arranged (table : Table) : Table := table.mergeSort fun g h => g.1.order ≤ h.1.order

def overview (table : Table) : List String :=
  ["Available commands:"] ++ (arranged table).flatMap (fun g => group g.1 g.2)
    ++ ["", "Type /help <command> for more information about a command."]

def commands (r : Registry) : List String := overview (byCategory r.docs)

def command (d : Doc) : List String :=
  [s!"Usage: {d.usage}", s!"  {d.summary}"]
    ++ match d.description with
      | none => []
      | some text => "" :: (lines text).map ("  " ++ ·)

def setting (d : Setting.Definition) : List String :=
  [s!"Setting: {d.name} {d.kind.label} ({d.tiers.label})"]
    ++ (match d.default? with
      | none => []
      | some raw => [s!"  Default: {raw}"])
    ++ ["", s!"  {d.doc}"]

def sections : List String :=
  ["Key binding sections:"] ++ (KeySection.all.map fun k => s!"  {padRight 12 k.name} {k.title}")
    ++ ["", "Type /help keys <section> to list the bindings."]

def keys (k : KeySection) : List String :=
  s!"{k.title}:" :: k.shortcuts.map fun s => s!"  {padRight 16 s.key} {s.description}"

end HubConsole.Command.Help
