import HubConsole.Pattern.Brackets
import HubConsole.Text.LetterTable
import HubConsole.Text.LowerCase

/-! # From patterns to trees

Reads a whole pattern. Groups that are open are kept on a stack, innermost first. -/

namespace HubConsole.Pattern
open Text

/-- A sequence that is being read, with the alternatives to its left. -/
structure Branches where
  start : Position
  done : List Node
  /-- Where the current sequence begins. -/
  first : Position
  items : List Node

namespace Branches

def openAt (p : Position) : Branches := ⟨p, [], p, []⟩

def add (b : Branches) (n : Node) : Branches := { b with items := b.items ++ [n] }

def sequence (b : Branches) (last : Position) : Node :=
  Node.gather ⟨b.first, last⟩ .sequence b.items

def alternate (b : Branches) (before after : Position) : Branches :=
  { b with done := b.done ++ [b.sequence before], first := after, items := [] }

def node (b : Branches) (last : Position) : Node :=
  Node.gather ⟨b.start, last⟩ .alternation (b.done ++ [b.sequence last])

end Branches

/-- A group that is open, with what was read before it. -/
structure OpenGroup where
  span : Span
  flags : Flags
  /-- Whether the pattern was spaced out before the group. -/
  spaced : Bool
  before : Branches

/-- What the reader knows: the branches of the innermost group, the groups around them, and the
names of groups so far. -/
structure Reader where
  branches : Branches
  around : List OpenGroup
  names : List (List Char × Span)

/-- Whether `c` may stand in the name of a group; fewer characters may begin it. -/
def isNameChar (first : Bool) (c : Char) : Bool :=
  let letter := c == '_' || inRows alphabeticRows c.toNat
  if first then letter
  else letter || c == '.' || c == '[' || c == ']' || inRows numericRows c.toNat

def readNameChars (first : Bool) (k : Cursor) : Except Error Cursor :=
  match k with
  | ⟨[], _, _⟩ => fault k.here .nameUnclosed
  | ⟨c :: cs, pos, spaced⟩ =>
    if c = '>' then return k
    else if isNameChar first c then readNameChars false ⟨cs, pos.next c, spaced⟩
    else fault k.hereChar .nameInvalid
termination_by k.rest.length

def readName (names : List (List Char × Span)) (k : Cursor) :
    Except Error (List (List Char × Span) × Cursor) := do
  let close ← readNameChars true k
  let name := k.textSince close
  let span := close.since k.pos
  if name.isEmpty then fault k.here .nameEmpty
  else match names.lookup name with
    | some earlier => throw ⟨.nameDuplicate, span, some earlier⟩
    | none => return (names ++ [(name, span)], close.advance)

/-- Reads flags up to a colon or a closing parenthesis. `passed` holds each flag and the negation
with its place, `none` being the negation. -/
def readFlags (passed : List (Option Flag × Span)) (k : Cursor) : Except Error (Flags × Cursor) :=
  match k.peek? with
  | none => fault k.here .flagIncomplete
  | some c =>
    if c = ':' ∨ c = ')' then
      match passed.getLast? with
      | some (none, span) => fault span .flagDanglingNegation
      | _ =>
        let on := passed.takeWhile (·.1.isSome)
        let off := passed.dropWhile (·.1.isSome)
        let side (state : Bool) (l : List (Option Flag × Span)) : Flags :=
          l.filterMap fun p => p.1.map (·, state)
        return (side true on ++ side false off, k)
    else do
      let flag ← if c = '-' then pure none else match Flag.ofChar? c with
        | some flag => pure (some flag)
        | none => fault k.hereChar .flagUnrecognized
      match passed.lookup flag with
      | some earlier =>
        let cause := if flag.isSome then Cause.flagDuplicate else .flagRepeatedNegation
        throw ⟨cause, k.hereChar, some earlier⟩
      | none =>
        let next := k.advance
        if next.rest.length < k.rest.length then readFlags (passed ++ [(flag, k.hereChar)]) next
        else fault next.here .flagIncomplete
termination_by k.rest.length

/-- The start of a look-around, which is not supported. -/
def passLookAround? (k : Cursor) : Option Cursor :=
  ["?=", "?!", "?<=", "?<!"].findSome? k.pass?

/-- Reads the opening of a group, or a switch of flags. The cursor stands at the parenthesis. -/
def readGroupOpening (r : Reader) (k : Cursor) : Except Error (Reader × Cursor) := do
  let span := k.hereChar
  let enter (flags : Flags) (names : List (List Char × Span)) (inside : Cursor) :
      Except Error (Reader × Cursor) :=
    let spaced := (Flags.state? flags .spaced).getD inside.spaced
    return (⟨.openAt inside.pos, ⟨span, flags, k.spaced, r.branches⟩ :: r.around, names⟩,
      { inside with spaced })
  let inside := k.advanceSkip
  if let some after := passLookAround? inside then
    fault (after.since span.first) .lookAround
  else if let some name := inside.pass? "?P<" <|> inside.pass? "?<" then
    let (names, after) ← readName r.names name
    enter [] names after
  else if let some question := inside.pass? "?" then
    if question.atEnd then fault span .groupUnclosed
    else
      let (flags, close) ← readFlags [] question
      let after := close.advance
      if close.peek? == some ')' then
        if close.rest.length == question.rest.length then fault inside.here .repetitionMissing
        else
          let spaced := (Flags.state? flags .spaced).getD after.spaced
          let n := Node.atom (after.since span.first) (.flags flags)
          return ({ r with branches := r.branches.add n }, { after with spaced })
      else enter flags r.names after
  else enter [] r.names inside

def readGroupClosing (r : Reader) (k : Cursor) : Except Error (Reader × Cursor) :=
  match r.around with
  | [] => fault k.hereChar .groupUnopened
  | g :: outer =>
    let after := k.advance
    let n := Node.branch ⟨g.span.first, after.pos⟩ (.group g.flags) [r.branches.node k.pos]
    let r := { r with branches := g.before.add n, around := outer }
    return (r, { after with spaced := g.spaced })

/-- The last part of the sequence, to which a repetition applies, and the parts before it. -/
def repeated (r : Reader) (k : Cursor) : Except Error (Node × List Node) :=
  match r.branches.items.reverse with
  | .atom _ .empty :: _ | .atom _ (.flags _) :: _ | [] => fault k.here .repetitionMissing
  | n :: before => return (n, before.reverse)

def Reader.withRepetition (r : Reader) (n : Node) (copies : Nat) (before : List Node)
    (last : Position) : Reader :=
  let n := Node.branch ⟨n.span.first, last⟩ (.repetition copies) [n]
  { r with branches := { r.branches with items := before ++ [n] } }

/-- Passes a question mark, which makes a repetition lazy. -/
def passLazy (k : Cursor) : Cursor := (k.pass? "?").getD k

def readRepetition (r : Reader) (k : Cursor) : Except Error (Reader × Cursor) := do
  let (n, before) ← repeated r k
  let after := passLazy k.advance
  return (r.withRepetition n 1 before after.pos, after)

def readDigits (digits : List Char) (k : Cursor) : List Char × Cursor :=
  match k.peek? with
  | none => (digits, k)
  | some c =>
    let next := k.advanceSkip
    if !c.isDigit then (digits, k)
    else if next.rest.length < k.rest.length then readDigits (digits ++ [c]) next
    else (digits, k)
termination_by k.rest.length

def passBlanks (k : Cursor) : Cursor :=
  match k.peek? with
  | none => k
  | some c =>
    let next := k.advanceSkip
    if !isBlank c then k
    else if next.rest.length < k.rest.length then passBlanks next
    else k
termination_by k.rest.length

/-- Reads a number of a repetition. The reading goes on after a bad number. -/
def readNumber (k : Cursor) : Except Error Nat × Cursor :=
  let start := k.passWhile isBlank
  let (digits, close) := readDigits [] start
  let after := passBlanks close
  let n := digits.foldl (fun n d => 10 * n + (d.toNat - '0'.toNat)) 0
  let number : Except Error Nat :=
    if digits.isEmpty then fault (close.since start.pos) .countEmpty
    else if UInt32.size ≤ n then fault (close.since start.pos) .decimalInvalid
    else return n
  (number, after)

def readCounted (r : Reader) (k : Cursor) : Except Error (Reader × Cursor) := do
  let start := k.pos
  let (n, before) ← repeated r k
  let unclosed (k : Cursor) : Except Error Unit :=
    if k.atEnd then fault (k.since start) .countUnclosed else return
  let inside := k.advanceSkip
  unclosed inside
  let (first, k) := readNumber inside
  unclosed k
  let (valid, copies, k) ←
    if k.peek? == some ',' then do
      let k := k.advanceSkip
      unclosed k
      if k.peek? == some '\x7d' then do
        let lo ← first
        pure (true, max lo 1, k)
      else do
        let lo ← first
        let (second, k) := readNumber k
        let hi ← second
        pure (decide (lo ≤ hi), hi, k)
    else do
      let n ← first
      pure (true, n, k)
  if k.peek? != some '\x7d' then fault (k.since start) .countUnclosed
  else
    let after := passLazy k.advanceSkip
    if valid then return (r.withRepetition n copies before after.pos, after)
    else fault (after.since start) .countRangeInvalid

def readPart (r : Reader) (k : Cursor) : Except Error (Reader × Cursor) := do
  let one (a : Atom) : Except Error (Reader × Cursor) :=
    return ({ r with branches := r.branches.add (.atom k.hereChar a) }, k.advance)
  match k.peek? with
  | none => return (r, k)
  | some '(' => readGroupOpening r k
  | some ')' => readGroupClosing r k
  | some '|' =>
    let after := k.advance
    return ({ r with branches := r.branches.alternate k.pos after.pos }, after)
  | some '[' =>
    let (n, k) ← readClass k
    return ({ r with branches := r.branches.add n }, k)
  | some '?' | some '*' | some '+' => readRepetition r k
  | some '\x7b' => readCounted r k
  | some '\\' =>
    let (n, k) ← readEscape k
    return ({ r with branches := r.branches.add n }, k)
  | some '.' => one .dot
  | some '^' | some '$' => one .assertion
  | some c => one (.char c false)

def readFrom (r : Reader) (k : Cursor) : Except Error Node := do
  let here := k.skipBlank
  if here.atEnd then
    match r.around with
    | [] => return r.branches.node here.pos
    | g :: _ => fault g.span .groupUnclosed
  else
    let (r, next) ← readPart r here
    if next.rest.length < k.rest.length then readFrom r next
    else fault here.here .groupUnclosed
termination_by k.rest.length

def Node.ofText (cs : List Char) : Except Error Node := do
  let k := Cursor.ofText cs
  let n ← readFrom ⟨.openAt k.pos, [], []⟩ k
  match n.tooDeep? 0 with
  | some span => fault span .nestedTooDeep
  | none => return n

end HubConsole.Pattern
