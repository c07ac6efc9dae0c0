import HubConsole.Pattern.Cursor
import HubConsole.Pattern.Syntax
import HubConsole.Text.Ascii

/-! # Escapes

Reads what starts with a backslash: characters by name or number, classes, properties and
assertions. -/

namespace HubConsole.Pattern
open Text

def isMeta (c : Char) : Bool := "\\.+*?()|[]\x7b\x7d^$#&-~".toList.contains c

/-- Whether a backslash before `c` gives `c` itself. -/
def isEscapable (c : Char) : Bool :=
  isMeta c || (c.toNat < 128 && !c.isAlphanum && c != '<' && c != '>')

def charOfNat? (n : Nat) : Option Char :=
  if n < 0xD800 ∨ (0xDFFF < n ∧ n < 0x110000) then some (Char.ofNat n) else none

def hexValue (ds : List Char) : Nat := ds.foldl (fun n d => 16 * n + (hexDigit? d).getD 0) 0

abbrev CharRead := Except Error (Char × Cursor)

def readHexDigits (start : Position) (digits : List Char) : Nat → Cursor → CharRead
  | 0, k =>
    match charOfNat? (hexValue digits) with
    | some c => pure (c, k)
    | none => fault (k.since start) .hexInvalid
  | n + 1, k =>
    match k.peek? with
    | none => fault k.here .escapeIncomplete
    | some d =>
      if isHexDigit d then readHexDigits start (digits ++ [d]) n k.advanceSkip
      else fault k.hereChar .hexInvalidDigit

/-- Reads hexadecimal digits up to a closing brace. `brace` is where the opening one stands. -/
def readHexBraced (brace first : Position) (digits : List Char) (k : Cursor) : CharRead :=
  match k.peek? with
  | none => fault (k.since brace) .escapeIncomplete
  | some d =>
    if d = '\x7d' then
      let after := k.advanceSkip
      if digits.isEmpty then fault (after.since brace) .hexEmpty
      else match charOfNat? (hexValue digits) with
        | some c => pure (c, after)
        | none => fault (k.since first) .hexInvalid
    else if isHexDigit d then
      let next := k.advanceSkip
      if next.rest.length < k.rest.length then readHexBraced brace first (digits ++ [d]) next
      else fault k.here .escapeIncomplete
    else fault k.hereChar .hexInvalidDigit
termination_by k.rest.length

/-- Reads a character by number. The cursor stands at the letter, which fixes the number of
digits. -/
def readHex (k : Cursor) : Except Error (Char × Bool × Cursor) := do
  let count := match k.peek? with
    | some 'x' => 2
    | some 'u' => 4
    | _ => 8
  let next := k.advanceSkip
  match next.peek? with
  | none => fault next.here .escapeIncomplete
  | some '\x7b' =>
    let (c, after) ← readHexBraced next.pos next.advance.pos [] next.advanceSkip
    return (c, false, after)
  | some _ =>
    let (c, after) ← readHexDigits next.pos [] count next
    return (c, count == 2, after)

def readBraced (name : List Char) (k : Cursor) : Except Error (List Char × Cursor) :=
  match k.peek? with
  | none => fault k.here .escapeIncomplete
  | some c =>
    if c = '\x7d' then pure (name, k.advance)
    else
      let next := k.advanceSkip
      if next.rest.length < k.rest.length then readBraced (name ++ [c]) next
      else fault k.here .escapeIncomplete
termination_by k.rest.length

def cutNotEqual? : List Char → Option (List Char × List Char)
  | '!' :: '=' :: rest => some ([], rest)
  | c :: cs => (cutNotEqual? cs).map fun p => (c :: p.1, p.2)
  | [] => none

def propertyOfText (cs : List Char) : Property :=
  match cutNotEqual? cs with
  | some (name, value) => .valued name value
  | none => match cutFirst? ':' cs with
    | some (name, value) => .valued name value
    | none => match cutFirst? '=' cs with
      | some (name, value) => .valued name value
      | none => .named cs

def readProperty (k : Cursor) : Except Error (Property × Cursor) := do
  let next := k.advanceSkip
  match next.peek? with
  | none => fault next.here .escapeIncomplete
  | some '\x7b' =>
    let (name, after) ← readBraced [] next.advanceSkip
    return (propertyOfText name, after)
  | some '\\' => fault next.hereChar .unicodeClassInvalid
  | some c => return (.named [c], next.advanceSkip)

def isBoundaryChar (c : Char) : Bool := c.isAlpha || c == '-'

def readBoundaryName (name : List Char) (k : Cursor) : List Char × Cursor :=
  match k.peek? with
  | none => (name, k)
  | some c =>
    let next := k.advanceSkip
    if !isBoundaryChar c then (name, k)
    else if next.rest.length < k.rest.length then readBoundaryName (name ++ [c]) next
    else (name, k)
termination_by k.rest.length

/-- Reads the kind of a word boundary in braces, if there is one: a brace that does not start so is
left for a repetition. `start` is where the escape began. -/
def readBoundary (start : Position) (k : Cursor) : Except Error Cursor := do
  match k.peek? with
  | some '\x7b' =>
    let inside := k.advanceSkip
    match inside.peek? with
    | none => fault (inside.since start) .boundaryIncomplete
    | some c =>
      if isBoundaryChar c then
        let (name, close) := readBoundaryName [] inside
        if close.peek? == some '\x7d' then
          if ["start", "end", "start-half", "end-half"].contains (String.ofList name) then
            return close.advance
          else fault (close.since inside.pos) .boundaryUnrecognized
        else fault (close.since k.pos) .boundaryUnclosed
      else return k
  | _ => return k

def readEscape (k : Cursor) : Except Error (Node × Cursor) := do
  let start := k.pos
  let letter := k.advance
  match letter.peek? with
  | none => fault (letter.since start) .escapeIncomplete
  | some c =>
    let after := letter.advance
    let short (a : Atom) : Except Error (Node × Cursor) :=
      return (.atom (after.since start) a, after)
    if c.isDigit then fault ⟨start, after.pos⟩ .backreference
    else if c == 'x' || c == 'u' || c == 'U' then
      let (d, raw, after) ← readHex letter
      return (.atom (after.since start) (.char d raw), after)
    else if c == 'p' || c == 'P' then
      let (p, after) ← readProperty letter
      return (.atom (after.since start) (.property p), after)
    else if isEscapable c then short (.char c false)
    else match c with
      | 'd' => short (.shorthand .digit false)
      | 's' => short (.shorthand .space false)
      | 'w' => short (.shorthand .word false)
      | 'D' => short (.shorthand .digit true)
      | 'S' => short (.shorthand .space true)
      | 'W' => short (.shorthand .word true)
      | 'a' => short (.char '\x07' false)
      | 'f' => short (.char '\x0c' false)
      | 't' => short (.char '\t' false)
      | 'n' => short (.char '\n' false)
      | 'r' => short (.char '\r' false)
      | 'v' => short (.char '\x0b' false)
      | 'A' | 'z' | 'B' | '<' | '>' => short .assertion
      | 'b' =>
        let after ← readBoundary start after
        return (.atom (after.since start) .assertion, after)
      | _ => fault (after.since start) .escapeUnrecognized

end HubConsole.Pattern
