import HubConsole.Pattern.Error

/-! # Syntax of regular expressions

The tree of a pattern. It keeps what decides whether the pattern is accepted: how deep its parts are
nested, which flags are in force, and the properties that it names. -/

namespace HubConsole.Pattern

inductive Flag where
  | ignoreCase
  | multiLine
  | dotNewline
  | swapGreed
  | unicode
  | crlf
  | spaced
deriving DecidableEq, Repr

def Flag.ofChar? : Char → Option Flag
  | 'i' => some .ignoreCase
  | 'm' => some .multiLine
  | 's' => some .dotNewline
  | 'U' => some .swapGreed
  | 'u' => some .unicode
  | 'R' => some .crlf
  | 'x' => some .spaced
  | _ => none

/-- Flags switched on and off, in the order in which they are written. -/
abbrev Flags := List (Flag × Bool)

def Flags.state? (fs : Flags) (f : Flag) : Option Bool := fs.lookup f

/-- What `\p` asks for. -/
inductive Property where
  | named (name : List Char)
  | valued (name value : List Char)
deriving DecidableEq, Repr

inductive Shorthand where
  | digit
  | space
  | word
deriving DecidableEq, Repr

/-- The parts of a pattern without parts of their own. -/
inductive Atom where
  | empty
  | flags (fs : Flags)
  /-- A character; `raw` tells whether it is written as two hexadecimal digits. -/
  | char (c : Char) (raw : Bool)
  | dot
  | assertion
  | shorthand (named : Shorthand) (negated : Bool)
  | property (p : Property)
  /-- A class such as `[:alpha:]` inside brackets. -/
  | ascii (negated : Bool)
deriving DecidableEq, Repr

inductive SetOp where
  | both
  | without
  | either
deriving DecidableEq, Repr

/-- The parts of a pattern with parts. Each adds one to the depth, but a range does not. -/
inductive Form where
  | alternation
  | sequence
  /-- As many copies of a part as stand in a row when the bounds are written out. -/
  | repetition (copies : Nat)
  | group (fs : Flags)
  | brackets (negated : Bool)
  | union
  | combination (op : SetOp)
  | range
deriving DecidableEq, Repr

inductive Node where
  | atom (span : Span) (a : Atom)
  | branch (span : Span) (form : Form) (children : List Node)

namespace Node

def span : Node → Span
  | atom s _ => s
  | branch s _ _ => s

/-- A list of parts under a common form; one part needs no form. -/
def gather (span : Span) (form : Form) : List Node → Node
  | [] => atom span .empty
  | [n] => n
  | ns => branch span form ns

mutual

/-- The first part, from the outside in and from left to right, that lies too deep. -/
def tooDeep? (depth : Nat) : Node → Option Span
  | atom _ _ => none
  | branch span form children =>
    let inner := if form = .range then depth else depth + 1
    if nestLimit < inner then some span else tooDeepAmong? inner children

def tooDeepAmong? (depth : Nat) : List Node → Option Span
  | [] => none
  | n :: ns => match tooDeep? depth n with
    | some span => some span
    | none => tooDeepAmong? depth ns

end

end Node
end HubConsole.Pattern
