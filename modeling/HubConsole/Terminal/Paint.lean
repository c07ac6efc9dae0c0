import HubConsole.Clock.Written
import HubConsole.Color
import HubConsole.Log
import HubConsole.Setting.Store
import HubConsole.Text.Lines

/-! # Painted log lines

The text that a terminal shows as log lines: each line of a message with the time before it, both in
the colors that settings give them. -/

namespace HubConsole.Terminal
open Text

def control (code : String) : String := s!"\x1b[{code}m"

def paletteIndex? : Color → Option Nat
  | .default => none
  | .black => some 0
  | .red => some 1
  | .green => some 2
  | .yellow => some 3
  | .blue => some 4
  | .magenta => some 5
  | .cyan => some 6
  | .white => some 7

def foregroundCode (c : Color) : String :=
  match paletteIndex? c with
  | none => "39"
  | some n => s!"38;5;{n}"

def backgroundCode (c : Color) : String :=
  match paletteIndex? c with
  | none => "49"
  | some n => s!"48;5;{n}"

def attributeCode : Attribute → String
  | .bold => "1"
  | .underline => "4"
  | .blink => "5"
  | .reverse => "7"

def reset : String := control "0"

/-- A text in a style. Attributes and colors are ended one after the other. -/
def styled (s : Style) (text : String) : String :=
  control (foregroundCode s.foreground) ++ control (backgroundCode s.background)
    ++ String.join (s.attributes.map fun a => control (attributeCode a))
    ++ text ++ reset ++ reset

def colored (c : Color) (text : String) : String := control (foregroundCode c) ++ text ++ reset

structure LogStyle where
  timeFormat : String
  time : Style
  info : Style
  error : Style
deriving DecidableEq, Repr

/-- The format of times where the setting has no value. -/
def defaultTimeFormat : String := "[%H:%M:%S]"

namespace LogStyle

def styleSetting (s : Store) (name : String) : Style :=
  match s.value? .global name with
  | some (.style st) => st
  | _ => .plain

def ofStore (s : Store) : LogStyle where
  timeFormat := match s.value? .global "ui_time_format" with
    | some (.text format) => format
    | _ => defaultTimeFormat
  time := styleSetting s "color_log_time"
  info := styleSetting s "color_log_default"
  error := styleSetting s "color_log_error"

def stamp (l : LogStyle) (t : Clock.Time) : String := Clock.stamp l.timeFormat t

def ofLevel (l : LogStyle) : Level → Style
  | .info => l.info
  | .error => l.error

end LogStyle

def paintMessage (l : LogStyle) (t : Clock.Time) (m : Message) : String :=
  String.join ((lines m.text).map fun line =>
    styled l.time (l.stamp t) ++ " " ++ styled (l.ofLevel m.level) line ++ "\n")

def paint (l : LogStyle) (ms : List (Clock.Time × Message)) : String :=
  String.join (ms.map fun m => paintMessage l m.1 m.2)

end HubConsole.Terminal
