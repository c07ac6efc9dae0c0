import HubConsole.Clock.Format

/-! # Written times

Fills the items of a format with a time. -/

namespace HubConsole.Clock

def fill (c : Char) (width : Nat) (s : List Char) : List Char :=
  List.replicate (width - s.length) c ++ s

/-- A number of at most 255 in two places, where tens above nine take the characters after `9`. -/
def twoPlaces (n : Nat) (pad : Pad) : List Char :=
  let tens := n / 10
  let lead := match pad with
    | .none => if tens = 0 then [] else [Char.ofNat ('0'.toNat + tens)]
    | .blank => if tens = 0 then [' '] else [Char.ofNat ('0'.toNat + tens)]
    | .zero => [Char.ofNat ('0'.toNat + tens)]
  lead ++ [Nat.digitChar (n % 10)]

/-- A number in at least `width` places. With `signed` it has a sign in any case, which takes one
place more. -/
def places (width : Nat) (n : Int) (pad : Pad) (signed : Bool) : List Char :=
  let digits := Nat.toDigits 10 n.natAbs
  let sign := if n < 0 then ['-'] else if signed then ['+'] else []
  let width := if signed then width + 1 else width
  match pad with
  | .none => sign ++ digits
  | .zero => sign ++ fill '0' (width - sign.length) digits
  | .blank => fill ' ' width (sign ++ digits)

/-- A year; outside of four digits it has a sign. -/
def yearText (y : Int) (pad : Pad) : List Char := places 4 y pad (y < 0 || 10000 ≤ y)

def monthNames : List String :=
  ["January", "February", "March", "April", "May", "June", "July", "August", "September",
    "October", "November", "December"]

/-- The names of the days from Monday on. -/
def weekdayNames : List String :=
  ["Monday", "Tuesday", "Wednesday", "Thursday", "Friday", "Saturday", "Sunday"]

def monthName (t : Time) : List Char := (monthNames.getD (t.month - 1) "").toList

def weekdayName (t : Time) : List Char := (weekdayNames.getD t.daysSinceMonday "").toList

def fractionDigits (t : Time) (count : Nat) : List Char :=
  (fill '0' 9 (Nat.toDigits 10 t.shownNanosecond)).take count

def fraction (t : Time) : List Char :=
  let n := t.shownNanosecond
  if n = 0 then []
  else if n % 1000000 = 0 then '.' :: fractionDigits t 3
  else if n % 1000 = 0 then '.' :: fractionDigits t 6
  else '.' :: fractionDigits t 9

def fieldText (t : Time) (pad : Pad) : Field → List Char
  | .year => yearText t.year pad
  | .century => twoPlaces (t.year / 100 % 256).toNat pad
  | .yearOfCentury => twoPlaces (t.year % 100).toNat pad
  | .isoYear => yearText t.isoWeek.1 pad
  | .isoYearOfCentury => twoPlaces (t.isoWeek.1 % 100).toNat pad
  | .quarter => [Nat.digitChar t.quarter]
  | .month => twoPlaces t.month pad
  | .day => twoPlaces t.day pad
  | .weekFromSunday => twoPlaces t.weekFromSunday pad
  | .weekFromMonday => twoPlaces t.weekFromMonday pad
  | .isoWeek => twoPlaces t.isoWeek.2 pad
  | .daysSinceSunday => [Nat.digitChar t.daysSinceSunday]
  | .isoWeekday => [Nat.digitChar (t.daysSinceMonday + 1)]
  | .dayOfYear => places 3 t.dayOfYear pad false
  | .hour => twoPlaces t.hour pad
  | .hour12 => twoPlaces t.hour12 pad
  | .minute => twoPlaces t.minute pad
  | .second => twoPlaces t.shownSecond pad
  | .nanosecond => places 9 t.shownNanosecond pad false
  | .timestamp => places 9 t.timestamp pad false

/-- The smallest unit in which an offset from UTC is written. -/
inductive Precision where
  | hours
  | minutes
  | seconds
deriving DecidableEq, Repr

/-- An offset with its sign, in units of two digits that `separator` stands between. Seconds are
rounded to a minute if minutes come last, and dropped with the minutes if hours do. -/
def offsetText (offset : Int) (precision : Precision) (separator : List Char) : List Char :=
  let seconds := offset.natAbs
  let sign := if offset < 0 then '-' else '+'
  let two n := twoPlaces n .zero
  match precision with
  | .hours => sign :: two (seconds / 3600)
  | .minutes =>
    let minutes := (seconds + 30) / 60
    sign :: two (minutes / 60) ++ separator ++ two (minutes % 60)
  | .seconds =>
    sign :: two (seconds / 3600) ++ separator ++ two (seconds / 60 % 60) ++ separator
      ++ two (seconds % 60)

/-- A zone is named by its offset, in seconds only if it has some. -/
def zoneName (t : Time) : List Char :=
  offsetText t.zone.offset (if t.zone.offset % 60 = 0 then .minutes else .seconds) [':']

def isoText (t : Time) : List Char :=
  yearText t.year .zero ++ '-' :: twoPlaces t.month .zero ++ '-' :: twoPlaces t.day .zero
    ++ 'T' :: twoPlaces t.hour .zero ++ ':' :: twoPlaces t.minute .zero
    ++ ':' :: twoPlaces t.shownSecond .zero ++ fraction t
    ++ offsetText t.zone.offset .minutes [':']

/-- The text of a word, or `none` if it has no written form. -/
def wordText? (t : Time) : Word → Option (List Char)
  | .shortMonth => some ((monthName t).take 3)
  | .longMonth => some (monthName t)
  | .shortWeekday => some ((weekdayName t).take 3)
  | .longWeekday => some (weekdayName t)
  | .lowerHalf => some (if t.isAfternoon then ['p', 'm'] else ['a', 'm'])
  | .upperHalf => some (if t.isAfternoon then ['P', 'M'] else ['A', 'M'])
  | .fraction => some (fraction t)
  | .digits point count =>
    let digits := fractionDigits t count
    some (if point then '.' :: digits else digits)
  | .zoneName => some (zoneName t)
  | .zone => some (offsetText t.zone.offset .minutes [])
  | .zoneColon => some (offsetText t.zone.offset .minutes [':'])
  | .zoneSeconds => some (offsetText t.zone.offset .seconds [':'])
  | .zoneHours => some (offsetText t.zone.offset .hours [])
  | .iso => some (isoText t)
  | .anyZone => none

def Item.text? (t : Time) : Item → Option (List Char)
  | .text cs => some cs
  | .field f pad => some (fieldText t pad f)
  | .word w => wordText? t w

def write? (t : Time) : List Item → Option (List Char)
  | [] => some []
  | item :: items => do
    let cs ← item.text? t
    let rest ← write? t items
    return cs ++ rest

/-- The time in a given format, or in brackets if that format cannot be used. -/
def stamp (format : String) (t : Time) : String :=
  match (Format.items? format.toList).bind (write? t) with
  | some cs => String.ofList cs
  | none => String.ofList ((write? t Format.bracketed).getD [])

end HubConsole.Clock
