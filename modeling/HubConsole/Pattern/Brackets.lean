import HubConsole.Pattern.Escape

/-! # Bracketed classes

Reads a class in brackets: characters, ranges, named classes, classes inside classes and their
combinations. What is open is kept on a stack, innermost first. -/

namespace HubConsole.Pattern
open Text

structure OpenClass where
  /-- The opening bracket with what belongs to it. -/
  span : Span
  negated : Bool
  /-- The operand on the left and its operation, once there is one. -/
  left : Option (Node × SetOp)
  /-- Where the current run of items begins. -/
  first : Position
  items : List Node

namespace OpenClass

def add (o : OpenClass) (n : Node) : OpenClass := { o with items := o.items ++ [n] }

def run (o : OpenClass) (last : Position) : Node :=
  let first := match o.items with
    | n :: _ => n.span.first
    | [] => o.first
  Node.gather ⟨first, last⟩ .union o.items

def content (o : OpenClass) (last : Position) : Node :=
  let right := o.run last
  match o.left with
  | none => right
  | some (left, op) => .branch ⟨left.span.first, right.span.last⟩ (.combination op) [left, right]

def combine (o : OpenClass) (op : SetOp) (before after : Position) : OpenClass :=
  { o with left := some (o.content before, op), first := after, items := [] }

end OpenClass

/-- The end of the last item, where a run of items ends. -/
def itemsEnd (o : OpenClass) (k : Cursor) : Position :=
  match o.items.getLast? with
  | some n => n.span.last
  | none => k.pos

/-- Passes dashes that stand directly after the opening of a class. -/
def readLeadingDashes (start : Position) (items : List Node) (k : Cursor) :
    Except Error (List Node × Cursor) :=
  match k.peek? with
  | some '-' =>
    let next := k.advanceSkip
    let items := items ++ [Node.atom k.hereChar (.char '-' false)]
    if next.atEnd then fault ⟨start, start⟩ .classUnclosed
    else if next.rest.length < k.rest.length then readLeadingDashes start items next
    else return (items, next)
  | _ => return (items, k)
termination_by k.rest.length

/-- Reads the opening of a class: the bracket, a negation, dashes, and a closing bracket that stands
for itself. -/
def readOpening (k : Cursor) : Except Error (OpenClass × Cursor) := do
  let start := k.pos
  let unclosed (k : Cursor) : Except Error Unit :=
    if k.atEnd then fault (k.since start) .classUnclosed else return
  let k := k.advanceSkip
  unclosed k
  let negated := k.peek? == some '^'
  let k := if negated then k.advanceSkip else k
  unclosed k
  let first := k.pos
  let (items, k) ← readLeadingDashes start [] k
  if items.isEmpty && k.peek? == some ']' then
    let items := [Node.atom k.hereChar (.char ']' false)]
    let k := k.advanceSkip
    unclosed k
    return (⟨k.since start, negated, none, first, items⟩, k)
  else return (⟨k.since start, negated, none, first, items⟩, k)

def asciiClassNames : List String :=
  ["alnum", "alpha", "ascii", "blank", "cntrl", "digit", "graph", "lower", "print", "punct",
    "space", "upper", "word", "xdigit"]

def readAsciiClass? (k : Cursor) : Option (Node × Cursor) := do
  let inside ← k.pass? "[:"
  let negated := inside.peek? == some '^'
  let inside := if negated then inside.advance else inside
  let close := inside.passWhile (· != ':')
  let name := String.ofList (inside.textSince close)
  let after ← close.pass? ":]"
  if asciiClassNames.contains name then some (.atom (after.since k.pos) (.ascii negated), after)
  else none

def readItem (k : Cursor) : Except Error (Node × Cursor) :=
  match k.peek? with
  | some '\\' => readEscape k
  | some c => return (.atom k.hereChar (.char c false), k.advance)
  | none => fault k.here .classUnclosed

def rangeEnd : Node → Except Error Char
  | .atom _ (.char c _) => return c
  | n => fault n.span .classRangeLiteral

def asItem : Node → Except Error Node
  | .atom span .assertion => fault span .classEscapeInvalid
  | n => return n

/-- Reads an item or a range. `unclosed` is the class to blame if the pattern ends. -/
def readRange (unclosed : Span) (k : Cursor) : Except Error (Node × Cursor) := do
  let (a, k) ← readItem k
  let k := k.skipBlank
  if k.atEnd then fault unclosed .classUnclosed
  else if k.peek? != some '-' || k.secondAfterBlank? == some ']' || k.secondAfterBlank? == some '-'
  then return (← asItem a, k)
  else
    let k := k.advanceSkip
    if k.atEnd then fault unclosed .classUnclosed
    else
      let (b, k) ← readItem k
      let span : Span := ⟨a.span.first, b.span.last⟩
      let lo ← rangeEnd a
      let hi ← rangeEnd b
      if lo ≤ hi then return (.branch span .range [a, b], k) else fault span .classRangeInvalid

/-- What a step inside a class comes to: a complete part, or the classes that are still open,
innermost first. -/
abbrev ClassStep := Node × Cursor ⊕ (OpenClass × List OpenClass) × Cursor

/-- One step inside the class `o`, which lies in the classes `outer`: either all classes are closed
and the part is complete, or reading goes on. -/
def readClassStep (o : OpenClass) (outer : List OpenClass) (k : Cursor) :
    Except Error ClassStep := do
  let operation (op : SetOp) : Except Error ClassStep :=
    let after := k.advance.advance
    return .inr ((o.combine op (itemsEnd o k) after.pos, outer), after)
  match k.peek?, k.second? with
  | none, _ => fault o.span .classUnclosed
  | some '[', _ =>
    match readAsciiClass? k with
    | some (n, k) => return .inr ((o.add n, outer), k)
    | none =>
      let (inner, k) ← readOpening k
      return .inr ((inner, o :: outer), k)
  | some ']', _ =>
    let after := k.advance
    let span : Span := ⟨o.span.first, after.pos⟩
    let n := Node.branch span (.brackets o.negated) [o.content (itemsEnd o k)]
    match outer with
    | [] => return .inl (n, after)
    | parent :: outer => return .inr ((parent.add n, outer), after)
  | some '&', some '&' => operation .both
  | some '-', some '-' => operation .without
  | some '~', some '~' => operation .either
  | _, _ =>
    let (n, k) ← readRange o.span k
    return .inr ((o.add n, outer), k)

def readClassFrom (o : OpenClass) (outer : List OpenClass) (k : Cursor) :
    Except Error (Node × Cursor) := do
  match ← readClassStep o outer k.skipBlank with
  | .inl done => return done
  | .inr ((o, outer), next) =>
    if next.rest.length < k.rest.length then readClassFrom o outer next
    else fault o.span .classUnclosed
termination_by k.rest.length

/-- Reads a class. The cursor stands at its opening bracket. -/
def readClass (k : Cursor) : Except Error (Node × Cursor) := do
  let (o, next) ← readOpening k
  readClassFrom o [] next

end HubConsole.Pattern
