/-! # Errors in regular expressions

What can be wrong with a pattern, and where. A place is given by its line and column, both counted
from one, and by its offset in characters. -/

namespace HubConsole.Pattern

structure Position where
  offset : Nat
  line : Nat
  column : Nat
deriving DecidableEq, Repr

def Position.start : Position := ⟨0, 1, 1⟩

def Position.next (p : Position) (c : Char) : Position :=
  if c = '\n' then ⟨p.offset + 1, p.line + 1, 1⟩ else ⟨p.offset + 1, p.line, p.column + 1⟩

/-- What lies between two places, the second one excluded. -/
structure Span where
  first : Position
  last : Position
deriving DecidableEq, Repr

def Span.isOneLine (s : Span) : Bool := s.first.line == s.last.line

def Span.le (a b : Span) : Bool :=
  a.first.offset < b.first.offset
    || (a.first.offset == b.first.offset && a.last.offset ≤ b.last.offset)

inductive Cause where
  | classEscapeInvalid
  | classRangeInvalid
  | classRangeLiteral
  | classUnclosed
  | decimalInvalid
  | hexEmpty
  | hexInvalid
  | hexInvalidDigit
  | escapeIncomplete
  | escapeUnrecognized
  | flagDanglingNegation
  | flagDuplicate
  | flagRepeatedNegation
  | flagIncomplete
  | flagUnrecognized
  | nameDuplicate
  | nameEmpty
  | nameInvalid
  | nameUnclosed
  | groupUnclosed
  | groupUnopened
  | nestedTooDeep
  | countRangeInvalid
  | countEmpty
  | countUnclosed
  | repetitionMissing
  | boundaryUnclosed
  | boundaryUnrecognized
  | boundaryIncomplete
  | unicodeClassInvalid
  | backreference
  | lookAround
  | unicodeNotAllowed
  | invalidUtf8
  | unknownProperty
  | unknownValue
deriving DecidableEq, Repr

/-- How deep groups, classes and repetitions may be nested. -/
def nestLimit : Nat := 250

def Cause.message : Cause → String
  | classEscapeInvalid => "invalid escape sequence found in character class"
  | classRangeInvalid => "invalid character class range, the start must be <= the end"
  | classRangeLiteral => "invalid range boundary, must be a literal"
  | classUnclosed => "unclosed character class"
  | decimalInvalid => "decimal literal invalid"
  | hexEmpty => "hexadecimal literal empty"
  | hexInvalid => "hexadecimal literal is not a Unicode scalar value"
  | hexInvalidDigit => "invalid hexadecimal digit"
  | escapeIncomplete => "incomplete escape sequence, reached end of pattern prematurely"
  | escapeUnrecognized => "unrecognized escape sequence"
  | flagDanglingNegation => "dangling flag negation operator"
  | flagDuplicate => "duplicate flag"
  | flagRepeatedNegation => "flag negation operator repeated"
  | flagIncomplete => "expected flag but got end of regex"
  | flagUnrecognized => "unrecognized flag"
  | nameDuplicate => "duplicate capture group name"
  | nameEmpty => "empty capture group name"
  | nameInvalid => "invalid capture group character"
  | nameUnclosed => "unclosed capture group name"
  | groupUnclosed => "unclosed group"
  | groupUnopened => "unopened group"
  | nestedTooDeep =>
    "exceed the maximum number of nested parentheses/brackets (" ++ nestLimit.repr ++ ")"
  | countRangeInvalid => "invalid repetition count range, the start must be <= the end"
  | countEmpty => "repetition quantifier expects a valid decimal"
  | countUnclosed => "unclosed counted repetition"
  | repetitionMissing => "repetition operator missing expression"
  | boundaryUnclosed =>
    "special word boundary assertion is either unclosed or contains an invalid character"
  | boundaryUnrecognized =>
    "unrecognized special word boundary assertion, valid choices are: start, end, start-half "
      ++ "or end-half"
  | boundaryIncomplete =>
    "found either the beginning of a special word boundary or a bounded repetition on a \\b with "
      ++ "an opening brace, but no closing brace"
  | unicodeClassInvalid => "invalid Unicode character class"
  | backreference => "backreferences are not supported"
  | lookAround => "look-around, including look-ahead and look-behind, is not supported"
  | unicodeNotAllowed => "Unicode not allowed here"
  | invalidUtf8 => "pattern can match invalid UTF-8"
  | unknownProperty => "Unicode property not found"
  | unknownValue => "Unicode property value not found"

/-- A cause at a place. `other` is a second place that belongs to it, such as the first of two equal
names. -/
structure Error where
  cause : Cause
  span : Span
  other : Option Span
deriving DecidableEq, Repr

end HubConsole.Pattern
