import HubConsole.Color
import HubConsole.Interval
import HubConsole.Pattern.Check
import HubConsole.Size

/-! # Kinds of values

What a setting may hold. A value is kept as its canonical text, which reads back as the same value;
what is shown to the user may be another text. -/

namespace HubConsole
open Text

inductive Kind where
  | bool
  | int (min max : Int)
  | text
  | choice (options : List String)
  | path
  | pattern
  | interval
  | speed
  | style
deriving DecidableEq, Repr

inductive Value where
  | bool (b : Bool)
  | int (n : Int)
  | text (s : String)
  | path (s : String)
  | pattern (s : String)
  /-- A number of seconds. -/
  | interval (seconds : Count)
  /-- Bytes per second. -/
  | speed (bytes : Count)
  | style (s : Style)
deriving DecidableEq, Repr

namespace Value

inductive Error where
  | notBool
  | notNumber
  | outOfRange (min max : Int)
  | noChoice (options : List String)
  | relativePath
  | badPattern (report : String)
  | notInterval
  | notSpeed
  | badStyle (e : Style.Error)
deriving DecidableEq, Repr

def Error.message : Error → String
  | notBool => "Invalid boolean value, use true or false."
  | notNumber => "Invalid number."
  | outOfRange min max => s!"Number must be between {min} and {max}."
  | noChoice options => "Invalid value, must be one of: " ++ joinWith ", " options ++ "."
  | relativePath => "Path must be absolute."
  | badPattern report => s!"Invalid regular expression: {report}"
  | notInterval => "Invalid interval, use e.g. 30s, 5m or 1h30m."
  | notSpeed => "Invalid speed, use e.g. 500K or 2M/s."
  | badStyle e => e.message

def raw : Value → String
  | bool b => if b then "true" else "false"
  | int n => toString n
  | text s | path s | pattern s => s
  | interval seconds => seconds.text
  | speed bytes => bytes.text
  | style s => s.text

def display : Value → String
  | interval seconds => Interval.text seconds
  | speed bytes => Size.speedText bytes
  | v => v.raw

end Value

def bool? (s : String) : Option Bool :=
  match lowerAsciiAll (trimmed s) with
  | "1" | "t" | "y" | "true" | "yes" | "on" => some true
  | "0" | "f" | "n" | "false" | "no" | "off" => some false
  | _ => none

def pathBelow (dir rest : List Char) : List Char :=
  if dir.getLast? == some '/' then dir ++ rest else dir ++ '/' :: rest

/-- Replaces a tilde at the start of a path by the home directory. -/
def expandHome (home cs : List Char) : List Char :=
  match cs with
  | ['~'] => pathBelow home []
  | '~' :: '/' :: rest => pathBelow home (rest.dropWhile (· == '/'))
  | cs => cs

def path? (home s : String) : Option String :=
  let cs := expandHome home.toList (trim s.toList)
  if cs.head? == some '/' then some (String.ofList cs) else none

namespace Kind

/-- Reads a value; `home` is the directory that a tilde stands for. -/
def parse (home : String) (k : Kind) (s : String) : Except Value.Error Value :=
  match k with
  | bool => match bool? s with
    | some b => pure (.bool b)
    | none => throw .notBool
  | int min max => match signedOfText? (trim s.toList) with
    | some n => if n < min ∨ max < n then throw (.outOfRange min max) else pure (.int n)
    | none => throw .notNumber
  | text => pure (.text s)
  | choice options => match options.find? fun o => sameIgnoringCase o (trimmed s) with
    | some o => pure (.text o)
    | none => throw (.noChoice options)
  | path => match path? home s with
    | some p => pure (.path p)
    | none => throw .relativePath
  | pattern => match Pattern.report? s with
    | none => pure (.pattern s)
    | some report => throw (.badPattern report)
  | interval => match Interval.parse? s with
    | some seconds => pure (.interval seconds)
    | none => throw .notInterval
  | speed => match Size.parseSpeed? s with
    | some bytes => pure (.speed bytes)
    | none => throw .notSpeed
  | style => match Style.parse s with
    | .ok st => pure (.style st)
    | .error e => throw (.badStyle e)

def completeFrom (words : List String) (typed : String) : List String :=
  words.filter fun w => startsWith w typed

/-- Completions of a value typed in part. In a list of names the last one is completed. -/
def suggest (k : Kind) (typed : String) : List String :=
  match k with
  | bool => completeFrom ["false", "true"] typed
  | choice options => completeFrom options typed
  | style =>
    let (head, last) := cutAfterLast (· == ',') typed.toList
    (completeFrom Style.words (String.ofList last)).map fun w => String.ofList head ++ w
  | _ => []

def label : Kind → String
  | bool => "<boolean>"
  | int _ _ => "<integer>"
  | text => "<string>"
  | choice options => joinWith "|" options
  | path => "<path>"
  | pattern => "<regex>"
  | interval => "<interval>"
  | speed => "<speed>"
  | style => "<color>"

end Kind
end HubConsole
