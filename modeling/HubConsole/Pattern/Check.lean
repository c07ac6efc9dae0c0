import HubConsole.Pattern.Property
import HubConsole.Pattern.Reader
import HubConsole.Pattern.Report
import HubConsole.Pattern.Size

/-! # Accepted patterns

A pattern is accepted if it can be read, names only known properties, and cannot match anything but
whole characters. `(?-u)` gives single bytes to classes, so that a class may hold bytes above 127;
all of these are in a class or none, which is what the check keeps track of. -/

namespace HubConsole.Pattern

def checkProperty (span : Span) (p : Property) : Except Error Unit :=
  let found := match p with
    | .named name => Property.faultOfName? name
    | .valued name value => Property.faultOfValue? name value
  match found with
  | none => return
  | some .unknownProperty => fault span .unknownProperty
  | some .unknownValue => fault span .unknownValue

/-- Checks an atom; the result tells whether it has bytes above 127 as part of a class. -/
def checkAtom (inClass unicode : Bool) (span : Span) : Atom → Except Error Bool
  | .char c raw =>
    if unicode then return false
    else if raw && 127 < c.toNat then fault span .invalidUtf8
    else if inClass && 127 < c.toNat then fault span .unicodeNotAllowed
    else return false
  | .dot => if unicode then return false else fault span .invalidUtf8
  | .shorthand _ negated => if negated && !unicode then fault span .invalidUtf8 else return false
  | .property p =>
    if unicode then do
      checkProperty span p
      return false
    else fault span .unicodeNotAllowed
  | .ascii negated => return negated && !unicode
  | .empty | .flags _ | .assertion => return false

mutual

/-- Checks a part of a class; the result tells whether it holds bytes above 127. -/
def checkClass (unicode : Bool) : Node → Except Error Bool
  | .atom span a => checkAtom true unicode span a
  | .branch span form children => do
    let high ← checkClasses unicode children
    match form, high with
    | .brackets negated, high =>
      let holds := high.any id != negated
      if holds && !unicode then fault span .invalidUtf8 else return holds
    | .combination .both, [a, b] => return a && b
    | .combination .without, [a, b] => return a && !b
    | .combination .either, [a, b] => return a != b
    | _, high => return high.any id

def checkClasses (unicode : Bool) : List Node → Except Error (List Bool)
  | [] => return []
  | n :: ns => do
    let high ← checkClass unicode n
    return high :: (← checkClasses unicode ns)

end

mutual

/-- Checks a part outside of classes; the result tells whether characters are in force after it. -/
def checkNode (unicode : Bool) : Node → Except Error Bool
  | .atom _ (.flags fs) => return (Flags.state? fs .unicode).getD unicode
  | .atom span a => do
    let _ ← checkAtom false unicode span a
    return unicode
  | .branch span (.brackets negated) children => do
    let high ← checkClasses unicode children
    if high.any id != negated && !unicode then fault span .invalidUtf8 else return unicode
  | .branch _ (.group fs) children => do
    let _ ← checkNodes ((Flags.state? fs .unicode).getD unicode) children
    return unicode
  | .branch _ _ children => checkNodes unicode children

def checkNodes (unicode : Bool) : List Node → Except Error Bool
  | [] => return unicode
  | n :: ns => do checkNodes (← checkNode unicode n) ns

end

def check (pattern : String) : Except Error Node := do
  let n ← Node.ofText pattern.toList
  let _ ← checkNode true n
  return n

/-- The report on a faulty pattern, or `none` if the pattern is accepted. -/
def report? (pattern : String) : Option String :=
  match check pattern with
  | .error e => some (Report.text pattern e)
  | .ok n =>
    if sizeLimit < n.size then
      some ("Compiled regex exceeds size limit of " ++ sizeLimit.repr ++ " bytes.")
    else none

end HubConsole.Pattern
