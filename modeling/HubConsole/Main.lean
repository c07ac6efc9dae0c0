import HubConsole.Command.Completion
import HubConsole.Launch.Start
import Std.Time.Zoned.Database

/-! # The program

Starts the console, reads lines as long as there is a terminal to read them from, and saves the
settings at the end. -/

namespace HubConsole.Launch
open Setting

/-- The offset of the local zone at a time; the zone counts as UTC if nothing is known of it. -/
def localOffset (t : Std.Time.Timestamp) : IO Int := do
  try
    let rules ← Std.Time.Database.defaultGetLocalZoneRules
    return (rules.timezoneAt t).offset.second.val
  catch _ => return 0

def now : IO Clock.Time := do
  let t ← Std.Time.Timestamp.now
  let offset ← localOffset t
  return .ofTimestamp t.toSecondsSinceUnixEpoch.val t.val.nano.val.toNat offset

def contentAt (path : String) : IO Content := do
  try
    return .bytes (← IO.FS.readBinFile path)
  catch
    | .noFileOrDirectory .. => return .missing
    | e => return .unreadable (toString e)

def faultOf (path : String) : IO (Option String) := do
  try
    discard <| IO.FS.Handle.mk path .append
    return none
  catch e => return some (toString e)

/-- Writes the settings file, and the directory around it if there is none. -/
def save (path text : String) : IO (Except Content.Error Unit) := do
  let directory := directoryOf path
  try
    if directory != "" then IO.FS.createDirAll directory
  catch e => return .error (.io directory (toString e))
  try
    IO.FS.writeFile path text
    return .ok ()
  catch e => return .error (.io path (toString e))

def print (text : String) : IO Unit := do
  let out ← IO.getStdout
  out.putStr text
  out.flush

/-- Reads and runs lines until the input ends or the session does. -/
partial def converse (s : Session) : IO Session := do
  print s!"{s.title s.tabs.current}> "
  let line ← (← IO.getStdin).getLine
  if line == "" then return s
  let s := s.dispatch (line.dropEndWhile (· == '\n')).toString
  if s.clearing then print "\x1b[2J\x1b[H"
  let (shown, s) := flush { s with clearing := false } (← now)
  print shown
  if s.quitting then return s else converse s

def run (o : Options) : IO UInt32 := do
  let home ← IO.getEnv "HOME"
  let path := settingsFile o home
  let content ← match path with
    | .ok path => contentAt path
    | .error _ => pure .missing
  let logFault ← match o.logFile with
    | some file => faultOf file
    | none => pure none
  let surroundings : Surroundings := ⟨home, content, logFault, ← now⟩
  let (shown, kept) ←
    if ← (← IO.getStdin).isTty then
      let (shown, s) := start o surroundings
      print shown
      pure ("", ending (← converse s))
    else pure (unattended o surroundings)
  print shown
  if let .ok path := path then
    if let .error e ← save path kept then print (warning e.message)
  return 0

end HubConsole.Launch

open HubConsole in
def main (args : List String) : IO UInt32 := do
  match Launch.task args with
  | .run o => Launch.run o
  | .showHelp => Launch.print Launch.usage; return 0
  | .showVersion => Launch.print s!"{Command.release}\n"; return 0
  | .refuse => (← IO.getStderr).putStrLn "Unknown argument, see --help."; return 2
