import HubConsole.Digest
import HubConsole.Size
import HubConsole.Text.Basic
import HubConsole.Text.Words

/-! # Search queries

What a search asks for: terms that must all match, a bound on the size, a type of file, or the
exact content. A query is written as words, with options that start with a dash. -/

namespace HubConsole
open Text

inductive SizeBound where
  | atLeast (bytes : Count)
  | atMost (bytes : Count)
deriving DecidableEq, Repr

def SizeBound.text : SizeBound → String
  | atLeast bytes => ">=" ++ bytes.text
  | atMost bytes => "<=" ++ bytes.text

/-- The types of files. `content` stands for a search by the exact content. -/
inductive FileType where
  | any
  | audio
  | archive
  | document
  | executable
  | image
  | video
  | directory
  | content
deriving DecidableEq, Repr

namespace FileType

def keyword : FileType → String
  | any => "any"
  | audio => "audio"
  | archive => "archive"
  | document => "doc"
  | executable => "exe"
  | image => "img"
  | video => "video"
  | directory => "dir"
  | content => "tth"

/-- The types that an option can select; their codes are 1, 2, …. -/
def selectable : List FileType :=
  [any, audio, archive, document, executable, image, video, directory]

def code? (cs : List Char) : Option Count :=
  match cs with
  | '+' :: ds => Count.ofDigits? ds
  | ds => Count.ofDigits? ds

/-- The type with this code or keyword. A number is never a keyword. -/
def parse? (s : String) : Option FileType :=
  match code? s.toList with
  | some code => if code = 0 then none else selectable[code.toNat - 1]?
  | none => selectable.find? fun t => t.keyword == lowerAsciiAll s

end FileType

inductive SearchScope where
  | currentHub
  | allHubs
deriving DecidableEq, Repr

structure Query where
  terms : List String
  size : Option SizeBound
  fileType : FileType
  tth : Option Tth
  scope : SearchScope
deriving DecidableEq

namespace Query

inductive Error where
  | missingOperand (flag : String)
  | invalidSize (flag value : String)
  | invalidType (flag value : String)
  | invalidTth (flag value : String)
  | unknownOption (flag : String)
  | empty
  | openQuote
deriving DecidableEq, Repr

def Error.message : Error → String
  | missingOperand flag => s!"Option {flag} expects an argument."
  | invalidSize flag value => s!"Invalid size '{value}' for {flag}."
  | invalidType flag value => s!"Unknown file type '{value}' for {flag}."
  | invalidTth flag value => s!"Invalid TTH '{value}' for {flag}."
  | unknownOption flag => s!"Unknown option: {flag}"
  | empty => "No search query given."
  | openQuote => "Invalid argument: missing closing quote"

/-- The query that asks for nothing, from which options and terms build. -/
def blank : Query := ⟨[], none, .any, none, .currentHub⟩

def addTerm (q : Query) (term : String) : Query := { q with terms := q.terms ++ [term] }

def withOperand (q : Query) (flag value : String) : Except Error Query :=
  match flag with
  | "-le" => match Size.parse? value with
    | some bytes => pure { q with size := some (.atMost bytes) }
    | none => throw (.invalidSize flag value)
  | "-ge" => match Size.parse? value with
    | some bytes => pure { q with size := some (.atLeast bytes) }
    | none => throw (.invalidSize flag value)
  | "-t" => match FileType.parse? value with
    | some fileType => pure { q with fileType }
    | none => throw (.invalidType flag value)
  | "-tth" => match Digest.parse? 24 value with
    | some tth => pure { q with tth := some tth }
    | none => throw (.invalidTth flag value)
  | _ => throw (.unknownOption flag)

def takesOperand (flag : String) : Bool := ["-le", "-ge", "-t", "-tth"].contains flag

def readFrom (q : Query) : List String → Except Error Query
  | [] => pure q
  | word :: rest =>
    if !startsWith word "-" then readFrom (q.addTerm word) rest
    else if word == "--" then pure (rest.foldl addTerm q)
    else if word == "-hub" then readFrom { q with scope := .currentHub } rest
    else if word == "-all" then readFrom { q with scope := .allHubs } rest
    else if takesOperand word then
      match rest with
      | [] => throw (.missingOperand word)
      | value :: rest => do readFrom (← q.withOperand word value) rest
    else throw (.unknownOption word)
termination_by words => words.length

/-- A content decides the type of file; without one there must be a term. -/
def complete (q : Query) : Except Error Query :=
  if q.tth.isSome then pure { q with fileType := .content }
  else if q.terms.isEmpty then throw .empty
  else pure q

def ofWords (words : List String) : Except Error Query := do
  complete (← readFrom blank words)

def parse (s : String) : Except Error Query :=
  match quotedWords? s with
  | some words => ofWords words
  | none => throw .openQuote

def text (q : Query) : String :=
  match q.tth with
  | some tth => "TTH " ++ tth.text
  | none => "'" ++ joinWith " " q.terms ++ "'"

end Query
end HubConsole
