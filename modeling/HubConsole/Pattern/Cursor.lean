import HubConsole.Pattern.Error
import HubConsole.Text.Blank

/-! # Reading a pattern

A cursor is a place in a pattern with the text after it. Where a pattern is spaced out, blanks and
comments are skipped between its parts. -/

namespace HubConsole.Pattern
open Text

structure Cursor where
  rest : List Char
  pos : Position
  spaced : Bool

namespace Cursor

def ofText (cs : List Char) : Cursor := ⟨cs, .start, false⟩

def atEnd (k : Cursor) : Bool := k.rest.isEmpty

def peek? (k : Cursor) : Option Char := k.rest.head?

def advance (k : Cursor) : Cursor :=
  match k.rest with
  | [] => k
  | c :: cs => { k with rest := cs, pos := k.pos.next c }

def passWhile (p : Char → Bool) (k : Cursor) : Cursor :=
  let passed := k.rest.takeWhile p
  { k with rest := k.rest.dropWhile p, pos := passed.foldl Position.next k.pos }

def textSince (j k : Cursor) : List Char := j.rest.take (j.rest.length - k.rest.length)

def blankLength (comment : Bool) : List Char → Nat
  | [] => 0
  | c :: cs =>
    if comment then 1 + blankLength (c != '\n') cs
    else if isBlank c then 1 + blankLength false cs
    else if c = '#' then 1 + blankLength true cs
    else 0

/-- Skips blanks and comments, if the pattern is spaced out here. -/
def skipBlank (k : Cursor) : Cursor :=
  if k.spaced then
    let n := blankLength false k.rest
    { k with rest := k.rest.drop n, pos := (k.rest.take n).foldl Position.next k.pos }
  else k

def advanceSkip (k : Cursor) : Cursor := k.advance.skipBlank

def here (k : Cursor) : Span := ⟨k.pos, k.pos⟩

def hereChar (k : Cursor) : Span := ⟨k.pos, k.advance.pos⟩

def since (k : Cursor) (p : Position) : Span := ⟨p, k.pos⟩

def pass? (lead : String) (k : Cursor) : Option Cursor :=
  (dropLead? lead.toList k.rest).map fun rest =>
    { k with rest, pos := lead.toList.foldl Position.next k.pos }

def second? (k : Cursor) : Option Char := (k.rest.drop 1).head?

/-- The character after the next one and after blanks and one number sign; where nothing but these
follows, the very next one. -/
def secondAfterBlank? (k : Cursor) : Option Char :=
  if !k.spaced then k.second?
  else
    let after := k.rest.drop 1
    let rest := match after.dropWhile isBlank with
      | '#' :: rest => rest.dropWhile isBlank
      | rest => rest
    match rest with
    | c :: _ => some c
    | [] => after.head?

end Cursor

def fault {α : Type} (span : Span) (cause : Cause) : Except Error α := throw ⟨cause, span, none⟩

end HubConsole.Pattern
