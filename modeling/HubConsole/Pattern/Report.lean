import HubConsole.Pattern.Error
import HubConsole.Text.Lines

/-! # Reports on faulty patterns

The text that shows an error: the pattern, carets under the places at fault, and the cause. A
pattern of several lines is shown between rules and with line numbers. -/

namespace HubConsole.Pattern.Report
open Text

def blanks (n : Nat) : String := String.ofList (List.replicate n ' ')

def padLeft (width n : Nat) : String :=
  let digits := n.repr
  blanks (width - digits.length) ++ digits

/-- Carets under the columns of the spans, which are in order and lie on one line. `column` counts
the characters written so far. -/
def carets (column : Nat) : List Span → String
  | [] => ""
  | s :: rest =>
    let gap := s.first.column - 1 - column
    let width := max 1 (s.last.column - s.first.column)
    blanks gap ++ String.ofList (List.replicate width '^') ++ carets (column + gap + width) rest

/-- The lines of the pattern from line `n` on, each followed by its carets. `width` is that of the
line numbers, 0 for none. -/
def notedLines (width : Nat) (spans : List Span) (n : Nat) : List String → String
  | [] => ""
  | line :: rest =>
    let lead := if width = 0 then "    " else padLeft width n ++ ": "
    let here := spans.filter fun s => s.isOneLine && s.first.line == n
    let marks :=
      if here.isEmpty then ""
      else blanks (if width = 0 then 4 else width + 2) ++ carets 0 here ++ "\n"
    lead ++ line ++ "\n" ++ marks ++ notedLines width spans (n + 1) rest

def extent (s : Span) : String :=
  let firstLine := s.first.line.repr
  let firstColumn := s.first.column.repr
  let lastLine := s.last.line.repr
  let lastColumn := (s.last.column - 1).repr
  s!"on line {firstLine} (column {firstColumn}) through line {lastLine} (column {lastColumn})"

def spansOf (e : Error) : List Span :=
  match e.other with
  | none => [e.span]
  | some other => if e.span.le other then [e.span, other] else [other, e.span]

def text (pattern : String) (e : Error) : String :=
  let spans := spansOf e
  let shown := lines pattern
  let cause := "error: " ++ e.cause.message
  if occursIn '\n' pattern then
    let count := shown.length + (if pattern.toList.getLast? == some '\n' then 1 else 0)
    let width := if count ≤ 1 then 0 else count.repr.length
    let rule := String.ofList (List.replicate 79 '~') ++ "\n"
    let long := spans.filter fun s => !s.isOneLine
    let extents := if long.isEmpty then "" else joinWith "\n" (long.map extent) ++ "\n"
    "regex parse error:\n" ++ rule ++ notedLines width spans 1 shown ++ rule ++ extents ++ cause
  else "regex parse error:\n" ++ notedLines 0 spans 1 shown ++ cause

end HubConsole.Pattern.Report
