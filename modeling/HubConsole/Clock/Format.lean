import HubConsole.Clock.Time
import HubConsole.Text.Blank

/-! # Time formats

A time format is a text in which `%` introduces a part of the time. `items?` reads a format and
fails if one of its specifiers does not exist; `write?` fills in a time, which fails only for a
specifier that has no written form. -/

namespace HubConsole.Clock

inductive Pad where
  | none
  | zero
  | blank
deriving DecidableEq, Repr

inductive Field where
  | year
  | century
  | yearOfCentury
  | isoYear
  | isoYearOfCentury
  | quarter
  | month
  | day
  | weekFromSunday
  | weekFromMonday
  | isoWeek
  | daysSinceSunday
  | isoWeekday
  | dayOfYear
  | hour
  | hour12
  | minute
  | second
  | nanosecond
  | timestamp
deriving DecidableEq, Repr

inductive Word where
  | shortMonth
  | longMonth
  | shortWeekday
  | longWeekday
  | lowerHalf
  | upperHalf
  /-- A point and 3, 6 or 9 digits, as few as are exact; nothing for a whole second. -/
  | fraction
  | digits (point : Bool) (count : Nat)
  | zoneName
  | zone
  | zoneColon
  | zoneSeconds
  | zoneHours
  | iso
  /-- A zone in any form, which can be read and not written. -/
  | anyZone
deriving DecidableEq, Repr

inductive Item where
  | text (cs : List Char)
  | field (f : Field) (pad : Pad)
  | word (w : Word)
deriving DecidableEq, Repr

namespace Format

def shortTime : List Item :=
  [.field .hour .zero, .text [':'], .field .minute .zero]

def time : List Item := shortTime ++ [.text [':'], .field .second .zero]

def date : List Item :=
  [.field .month .zero, .text ['/'], .field .day .zero, .text ['/'], .field .yearOfCentury .zero]

def letter? : Char → Option (List Item)
  | 'A' => some [.word .longWeekday]
  | 'B' => some [.word .longMonth]
  | 'C' => some [.field .century .zero]
  | 'D' => some date
  | 'F' => some [.field .year .zero, .text ['-'], .field .month .zero, .text ['-'],
      .field .day .zero]
  | 'G' => some [.field .isoYear .zero]
  | 'H' => some [.field .hour .zero]
  | 'I' => some [.field .hour12 .zero]
  | 'M' => some [.field .minute .zero]
  | 'P' => some [.word .lowerHalf]
  | 'R' => some shortTime
  | 'S' => some [.field .second .zero]
  | 'T' => some time
  | 'U' => some [.field .weekFromSunday .zero]
  | 'V' => some [.field .isoWeek .zero]
  | 'W' => some [.field .weekFromMonday .zero]
  | 'X' => some time
  | 'Y' => some [.field .year .zero]
  | 'Z' => some [.word .zoneName]
  | 'a' => some [.word .shortWeekday]
  | 'b' => some [.word .shortMonth]
  | 'c' => some ([.word .shortWeekday, .text [' '], .word .shortMonth, .text [' '],
      .field .day .blank, .text [' ']] ++ time ++ [.text [' '], .field .year .zero])
  | 'd' => some [.field .day .zero]
  | 'e' => some [.field .day .blank]
  | 'f' => some [.field .nanosecond .zero]
  | 'g' => some [.field .isoYearOfCentury .zero]
  | 'h' => some [.word .shortMonth]
  | 'j' => some [.field .dayOfYear .zero]
  | 'k' => some [.field .hour .blank]
  | 'l' => some [.field .hour12 .blank]
  | 'm' => some [.field .month .zero]
  | 'n' => some [.text ['\n']]
  | 'p' => some [.word .upperHalf]
  | 'q' => some [.field .quarter .none]
  | 'r' => some [.field .hour12 .zero, .text [':'], .field .minute .zero, .text [':'],
      .field .second .zero, .text [' '], .word .upperHalf]
  | 's' => some [.field .timestamp .none]
  | 't' => some [.text ['\t']]
  | 'u' => some [.field .isoWeekday .none]
  | 'v' => some [.field .day .blank, .text ['-'], .word .shortMonth, .text ['-'],
      .field .year .zero]
  | 'w' => some [.field .daysSinceSunday .none]
  | 'x' => some date
  | 'y' => some [.field .yearOfCentury .zero]
  | 'z' => some [.word .zone]
  | '+' => some [.word .iso]
  | '%' => some [.text ['%']]
  | _ => none

/-- Reads a specifier after its percent sign and modifier: its items and the rest of the format. -/
def specifier? : List Char → Option (List Item × List Char)
  | ':' :: ':' :: ':' :: 'z' :: rest => some ([.word .zoneHours], rest)
  | ':' :: ':' :: 'z' :: rest => some ([.word .zoneSeconds], rest)
  | ':' :: 'z' :: rest => some ([.word .zoneColon], rest)
  | '.' :: '3' :: 'f' :: rest => some ([.word (.digits true 3)], rest)
  | '.' :: '6' :: 'f' :: rest => some ([.word (.digits true 6)], rest)
  | '.' :: '9' :: 'f' :: rest => some ([.word (.digits true 9)], rest)
  | '.' :: 'f' :: rest => some ([.word .fraction], rest)
  | '3' :: 'f' :: rest => some ([.word (.digits false 3)], rest)
  | '6' :: 'f' :: rest => some ([.word (.digits false 6)], rest)
  | '9' :: 'f' :: rest => some ([.word (.digits false 9)], rest)
  | c :: rest => (letter? c).map (·, rest)
  | [] => none

def pad? : Char → Option Pad
  | '-' => some .none
  | '0' => some .zero
  | '_' => some .blank
  | _ => none

/-- Reads what follows a percent sign. A padding can only be asked of a single number. -/
def afterPercent? : List Char → Option (List Item × List Char)
  | [] => none
  | '#' :: 'z' :: rest => some ([.word .anyZone], rest)
  | '#' :: _ => none
  | c :: rest =>
    match pad? c with
    | none => specifier? (c :: rest)
    | some pad => match specifier? rest with
      | some ([.field f _], rest) => some ([.field f pad], rest)
      | _ => none

theorem length_of_specifier? {cs rest : List Char} {items : List Item}
    (h : specifier? cs = some (items, rest)) : rest.length < cs.length := by
  unfold specifier? at h
  split at h
  case h_11 =>
    obtain ⟨_, _, e⟩ := Option.map_eq_some_iff.1 h
    cases e
    simp
  all_goals first
    | (obtain ⟨-, rfl⟩ := by simpa using h
       simp only [List.length_cons]
       omega)
    | simp at h

theorem length_of_afterPercent? {cs rest : List Char} {items : List Item}
    (h : afterPercent? cs = some (items, rest)) : rest.length < cs.length := by
  unfold afterPercent? at h
  split at h
  · simp at h
  · obtain ⟨-, rfl⟩ := by simpa using h
    simp only [List.length_cons]
    omega
  · simp at h
  · split at h
    · exact length_of_specifier? h
    · split at h
      · next hs =>
        obtain ⟨-, rfl⟩ := by simpa using h
        have := length_of_specifier? hs
        simp only [List.length_cons]
        omega
      · simp at h

def items? (cs : List Char) : Option (List Item) :=
  match cs with
  | [] => some []
  | '%' :: rest =>
    match _h : afterPercent? rest with
    | none => none
    | some (items, rest) => (items? rest).map (items ++ ·)
  | c :: rest => (items? rest).map (.text [c] :: ·)
termination_by cs.length
decreasing_by
  · have := length_of_afterPercent? ‹_›
    simp only [List.length_cons]
    omega
  · simp

def isFormat (s : String) : Bool := (items? s.toList).isSome

/-- The format of the time of day in brackets, which is always usable. -/
def bracketed : List Item := .text ['['] :: time ++ [.text [']']]

end Format
end HubConsole.Clock
