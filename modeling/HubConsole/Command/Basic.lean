import HubConsole.Command.Help
import HubConsole.Command.Line
import HubConsole.Session.Connection
import HubConsole.Session.People
import HubConsole.Session.Preferences
import HubConsole.Session.Search

/-! # Commands

The commands of the console and what they do with a session. An attempt that fails leaves the
session as it is; its cause is reported once. Commands that find out too late to be given up report
the failure themselves. -/

namespace HubConsole
open Text

inductive Command where
  | say
  | me
  | msg
  | openHub
  | connect
  | disconnect
  | reconnect
  | close
  | kick
  | whois
  | password
  | set (tier : Session.Tier)
  | unset (tier : Session.Tier)
  | search
  | grant
  | ungrant
  | help
  | clear
  | quit
  | version
deriving DecidableEq, Repr

namespace Command

def name : Command → String
  | say => chatName
  | me => "me"
  | msg => "msg"
  | openHub => "open"
  | connect => "connect"
  | disconnect => "disconnect"
  | reconnect => "reconnect"
  | close => "close"
  | kick => "kick"
  | whois => "whois"
  | password => "password"
  | set tier => tier.setCommand
  | unset tier => tier.unsetCommand
  | search => "search"
  | grant => "grant"
  | ungrant => "ungrant"
  | help => "help"
  | clear => "clear"
  | quit => "quit"
  | version => "version"

def all : List Command :=
  [say, me, msg, openHub, connect, disconnect, reconnect, close, kick, whois, password,
    set .global, set .hub, unset .global, unset .hub, search, grant, ungrant, help, clear, quit,
    version]

def ofName? (s : String) : Option Command := all.find? fun c => c.name == s

theorem ofName?_name (c : Command) : ofName? c.name = some c := by
  cases c <;> first | decide | (rename_i t; cases t <;> decide)

def registry : Registry := (Registry.ofNames (all.map name)).toOption.getD .empty

def release : String := "dcline 0.1.0"

def checkNone (args : String) : Attempt Unit :=
  if args == "" then pure () else throw .takesNoArguments

def showPage (s : Session) (page : List String) : Session := s.info (joinWith "\n" page)

/-- Shows the page of key bindings that a section names, or the sections if none is named. -/
def helpOnKeys (s : Session) (name : String) : Attempt Session :=
  if name == "" then return showPage s Help.sections
  else match KeySection.ofName? name with
    | some k => return showPage s (Help.keys k)
    | none => throw (.unknownSection name)

def helpOnSetting (s : Session) (name : String) : Attempt Session :=
  match Store.definition name with
  | .ok d => return showPage s (Help.setting d)
  | .error e => throw (.badSetting e)

/-- Shows the page of a command, whose name may have a slash before it. -/
def helpOnCommand (s : Session) (topic : String) : Attempt Session :=
  let name := String.ofList ((dropLead? ['/'] topic.toList).getD topic.toList)
  match registry.get? name with
  | some d => return showPage s (Help.command d)
  | none => throw (.noHelp name)

def helpOn (s : Session) (args : String) : Attempt Session :=
  if args == "" then return showPage s (Help.commands registry)
  else
    let (topic, rest) := Line.splitName args.toList
    let topic := String.ofList topic
    let rest := String.ofList (trim rest)
    if topic == "keys" then helpOnKeys s rest
    else if (topic == "set" || topic == "hset") && rest != "" then helpOnSetting s rest
    else helpOnCommand s topic

def run (c : Command) (s : Session) (args : String) : Attempt Session :=
  match c with
  | say => s.chat args false
  | me => s.chat args true
  | msg =>
    let (nick, message) := Line.splitName args.toList
    s.tell (String.ofList nick) (String.ofList message)
  | openHub => do s.openHub (← Session.Opening.parse args)
  | connect => s.connect args
  | disconnect => do checkNone args; s.disconnect
  | reconnect => do checkNone args; s.reconnect
  | close => do checkNone args; return s.close
  | kick => s.kick args
  | whois => s.whois args
  | password => s.password args
  | set tier => s.set tier args
  | unset tier => s.unset tier args
  | search => s.search args
  | grant => s.grant args
  | ungrant => s.ungrant args
  | help => helpOn s args
  | clear => do checkNone args; return { s with clearing := true }
  | quit => do checkNone args; return { s with quitting := true }
  | version => do checkNone args; return s.info release

end Command

namespace Session

/-- The session after an attempt: what it came to, or the session as it was with a report. -/
def settle (s : Session) : Attempt Session → Session
  | .ok t => t
  | .error e => s.error e.message

def call (s : Session) (name args : String) : Attempt Session :=
  match Command.ofName? name with
  | some c => c.run s args
  | none => throw (.unknownCommand name (Command.registry.closest? name))

def dispatch (s : Session) (line : String) : Session :=
  match Command.Line.parse? line with
  | none => s
  | some l => s.settle (s.call l.name l.args)

end Session
end HubConsole
