import HubConsole.Text.Basic

/-! # Arguments of the program

The arguments with which the program is started. They are read from left to right, and the first one
that asks for help, for the version, or for something that does not exist decides. -/

namespace HubConsole.Launch
open Text

structure Options where
  config : Option String
  logFile : Option String
  autoconnects : Bool
deriving DecidableEq, Repr

inductive Task where
  | run (o : Options)
  | showHelp
  | showVersion
  | refuse
deriving DecidableEq, Repr

inductive Valued where
  | config
  | logFile
deriving DecidableEq, Repr

inductive Argument where
  /-- Two dashes: all that follows is no option. -/
  | bar
  /-- An option of two dashes and a name, perhaps with a value after an equals sign. -/
  | long (name : List Char) (value : Option (List Char))
  | short (letters : List Char)
  | plain (text : String)
deriving DecidableEq, Repr

namespace Argument

def ofText (s : String) : Argument :=
  match s.toList with
  | ['-', '-'] => bar
  | '-' :: '-' :: rest =>
    match cutFirst? '=' rest with
    | some (name, value) => long name (some value)
    | none => long rest none
  | ['-'] => plain s
  | '-' :: letters => short letters
  | _ => plain s

end Argument

namespace Options

def start : Options := ⟨none, none, true⟩

/-- Gives an option its value, which must not be empty. No option is given twice. -/
def give? (o : Options) (v : Valued) (value : String) : Option Options :=
  if value == "" then none
  else match v with
    | .config => if o.config.isSome then none else some { o with config := some value }
    | .logFile => if o.logFile.isSome then none else some { o with logFile := some value }

end Options

def shortTask : List Char → Task
  | 'h' :: _ => .showHelp
  | 'V' :: _ => .showVersion
  | _ => .refuse

def valued? (name : List Char) : Option Valued :=
  match String.ofList name with
  | "config" => some .config
  | "log-file" => some .logFile
  | _ => none

/-- Reads the arguments that follow those that made the choices `o`. -/
def readArguments (o : Options) : List Argument → Task
  | [] => .run o
  | .bar :: rest => if rest.isEmpty then .run o else .refuse
  | .plain _ :: _ => .refuse
  | .short letters :: _ => shortTask letters
  | .long name value :: rest =>
    match valued? name, value with
    | some v, some value =>
      match o.give? v (String.ofList value) with
      | some o => readArguments o rest
      | none => .refuse
    | some v, none =>
      match rest with
      | .plain value :: rest =>
        match o.give? v value with
        | some o => readArguments o rest
        | none => .refuse
      | _ => .refuse
    | none, some _ => .refuse
    | none, none =>
      match String.ofList name with
      | "help" => .showHelp
      | "version" => .showVersion
      | "no-autoconnect" =>
        if o.autoconnects then readArguments { o with autoconnects := false } rest else .refuse
      | _ => .refuse

def task (args : List String) : Task := readArguments .start (args.map Argument.ofText)

def usage : String :=
  String.join ([
    "Interactive Direct Connect chat and file sharing client",
    "",
    "Usage: dcline [OPTIONS]",
    "",
    "Options:",
    "      --config <CONFIG>      Settings file (default: ~/.config/dcline/settings.json)",
    "      --log-file <LOG_FILE>  Write diagnostics to this file instead of stderr",
    "      --no-autoconnect       Do not connect to hubs marked with autoconnect",
    "  -h, --help                 Print help",
    "  -V, --version              Print version"].map (· ++ "\n"))

end HubConsole.Launch
