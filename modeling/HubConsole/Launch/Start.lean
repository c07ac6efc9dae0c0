import HubConsole.Command.Basic
import HubConsole.Launch.Arguments
import HubConsole.Setting.Document
import HubConsole.Terminal.Paint

/-! # The start of the program

What is shown before the first line is read, and the session with which the program begins. -/

namespace HubConsole.Launch
open Setting Terminal

structure Surroundings where
  home : Option String
  content : Content
  /-- Why the file for diagnostics cannot be opened, if it cannot. -/
  logFault : Option String
  now : Clock.Time

def warning (text : String) : String := colored .yellow s!"Warning: {text}\n"

def greeting : String :=
  colored .magenta s!"{Command.release}. Type /help for commands, /help keys for shortcuts.\n"

def settingsFile (o : Options) (home : Option String) : Except Content.Error String :=
  match o.config, home with
  | some path, _ => pure path
  | none, some home => pure (settingsPath home)
  | none, none => throw .noHome

/-- The stored values to begin with, and a warning if they are not those of the settings file. -/
def beginning (o : Options) (w : Surroundings) : List Entry × String :=
  match settingsFile o w.home with
  | .error e => ([], warning e.message)
  | .ok path => match w.content.load path with
    | .ok es => (es, "")
    | .error e => ([], warning s!"{e.message}\nStarting with default settings.")

/-- The text of the messages that wait, and the session without them. -/
def flush (s : Session) (now : Clock.Time) : String × Session :=
  (paint (.ofStore s.store) (s.log.map fun m => (now, m)), { s with log := [] })

def start (o : Options) (w : Surroundings) : String × Session :=
  let fault := match w.logFault with
    | some e => warning s!"cannot open log file: {e}"
    | none => ""
  let (entries, loaded) := beginning o w
  let s := Session.new (.ofEntries (w.home.getD "/") entries) .offline
  let (shown, s) := flush (if o.autoconnects then s.autoconnect else s) w.now
  (fault ++ loaded ++ greeting ++ shown, s)

def ending (s : Session) : String := writeDocument s.store.entries

/-- A run without a terminal: what it shows, and what it saves in the settings file at its end. -/
def unattended (o : Options) (w : Surroundings) : String × String :=
  let (shown, s) := start o w
  (shown, ending s)

/-- The directory of a file, empty if the path has none. -/
def directoryOf (path : String) : String :=
  String.ofList (Text.cutAfterLast (· == '/') path.toList).1

end HubConsole.Launch
