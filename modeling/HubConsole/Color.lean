import HubConsole.Text.Ascii
import HubConsole.Text.Blank

/-! # Colors of log lines

A style is a foreground and a background color with attributes, written as a list of names between
commas. The first two colors of the list are the foreground and the background; attributes may
stand anywhere in it. -/

namespace HubConsole
open Text

inductive Color where
  | default
  | black
  | blue
  | cyan
  | green
  | magenta
  | red
  | white
  | yellow
deriving DecidableEq, Repr

namespace Color

def name : Color → String
  | default => "default"
  | black => "black"
  | blue => "blue"
  | cyan => "cyan"
  | green => "green"
  | magenta => "magenta"
  | red => "red"
  | white => "white"
  | yellow => "yellow"

def all : List Color := [default, black, blue, cyan, green, magenta, red, white, yellow]

def ofName? (s : String) : Option Color := all.find? fun c => c.name == s

theorem ofName?_name (c : Color) : ofName? c.name = some c := by cases c <;> decide

theorem ofName?_eq_some_iff {s : String} {c : Color} : ofName? s = some c ↔ c.name = s := by
  constructor
  · intro h
    simpa using List.find?_some h
  · rintro rfl
    exact ofName?_name c

end Color

inductive Attribute where
  | blink
  | bold
  | reverse
  | underline
deriving DecidableEq, Repr

namespace Attribute

def name : Attribute → String
  | blink => "blink"
  | bold => "bold"
  | reverse => "reverse"
  | underline => "underline"

def all : List Attribute := [blink, bold, reverse, underline]

def ofName? (s : String) : Option Attribute := all.find? fun a => a.name == s

theorem ofName?_name (a : Attribute) : ofName? a.name = some a := by cases a <;> decide

theorem ofName?_eq_some_iff {s : String} {a : Attribute} : ofName? s = some a ↔ a.name = s := by
  constructor
  · intro h
    simpa using List.find?_some h
  · rintro rfl
    exact ofName?_name a

end Attribute

structure Style where
  foreground : Color
  background : Color
  attributes : List Attribute
deriving DecidableEq, Repr

namespace Style

inductive Error where
  | emptyName
  | tooManyColors
  | unknownName (name : String)
deriving DecidableEq, Repr

def Error.message : Error → String
  | emptyName => "Empty color name."
  | tooManyColors => "Too many colors, at most a foreground and background."
  | unknownName name => s!"Unknown color or attribute: {name}"

def plain : Style := ⟨.default, .default, []⟩

/-- The colors and attributes of a list of names, in the order of the list. -/
structure Listed where
  colors : List Color
  attributes : List Attribute

def Listed.add (l : Listed) (word : List Char) : Except Error Listed :=
  let name := String.ofList ((trim word).map lowerAscii)
  if name == "" then throw .emptyName
  else match Color.ofName? name with
    | some color =>
      if l.colors.length < 2 then pure { l with colors := l.colors ++ [color] }
      else throw .tooManyColors
    | none => match Attribute.ofName? name with
      | some a => pure { l with attributes := l.attributes ++ [a] }
      | none => throw (.unknownName name)

def Listed.addAll (l : Listed) : List (List Char) → Except Error Listed
  | [] => pure l
  | word :: words => do (← l.add word).addAll words

/-- The style that a list names: its attributes are a set. -/
def Listed.style (l : Listed) : Style :=
  ⟨l.colors.getD 0 .default, l.colors.getD 1 .default,
    Attribute.all.filter fun a => l.attributes.contains a⟩

def parse (s : String) : Except Error Style := do
  return (← Listed.addAll ⟨[], []⟩ (pieces (· == ',') s.toList)).style

def names (s : Style) : List String :=
  let colors :=
    if s.background ≠ .default then [s.foreground.name, s.background.name]
    else if s.foreground ≠ .default then [s.foreground.name]
    else []
  match colors ++ s.attributes.map Attribute.name with
  | [] => ["default"]
  | names => names

def text (s : Style) : String := joinWith "," s.names

def words : List String :=
  ["black", "blink", "blue", "bold", "cyan", "default", "green", "magenta", "red", "reverse",
    "underline", "white", "yellow"]

end Style
end HubConsole
