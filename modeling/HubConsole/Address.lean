import HubConsole.Count
import HubConsole.Digest
import HubConsole.Text.Ascii
import HubConsole.Text.Blank

/-! # Hub addresses

An address is written `[scheme://]host[:port][/[?kp=[SHA256/]keyprint]]`. It names a hub's protocol,
host and port, and for the protocols over TLS it may pin the hub's certificate by a keyprint. -/

namespace HubConsole
open Text

inductive Protocol where
  | dchub
  | nmdc
  | nmdcs
  | adc
  | adcs
deriving DecidableEq, Repr

namespace Protocol

def scheme : Protocol → String
  | dchub => "dchub"
  | nmdc => "nmdc"
  | nmdcs => "nmdcs"
  | adc => "adc"
  | adcs => "adcs"

def all : List Protocol := [dchub, nmdc, nmdcs, adc, adcs]

/-- The protocol with this scheme, in any letter case. -/
def ofScheme? (s : String) : Option Protocol :=
  all.find? fun p => p.scheme == lowerAsciiAll s

def isTls : Protocol → Bool
  | nmdcs | adcs => true
  | _ => false

end Protocol

structure Address where
  protocol : Protocol
  host : String
  port : Nat
  keyprint : Option Keyprint
deriving DecidableEq

namespace Address

inductive Error where
  | malformed
  | keyprintWithoutTls
deriving DecidableEq, Repr

def Error.message : Error → String
  | malformed => "Invalid hub address."
  | keyprintWithoutTls => "Keyprints are only valid for adcs:// or nmdcs:// addresses."

def defaultPort : Nat := 411

def isHostChar (c : Char) : Bool :=
  !isBlank c && !(":/<>()[]".toList.contains c)

/-- The parts of an address as they are written. -/
structure Parts where
  scheme : Option (List Char)
  host : List Char
  port : Option (List Char)
  keyprint : Option (List Char)
deriving DecidableEq

/-- Splits off letters and `://`, if the text starts so. -/
def splitScheme (cs : List Char) : Option (List Char) × List Char :=
  let letters := cs.takeWhile Char.isAlpha
  match letters, cs.dropWhile Char.isAlpha with
  | _ :: _, ':' :: '/' :: '/' :: rest => (some letters, rest)
  | _, _ => (none, cs)

/-- Splits off a colon and one to five digits, if the text starts so. -/
def splitPort (cs : List Char) : Option (List Char) × List Char :=
  match cs with
  | ':' :: rest =>
    let digits := rest.takeWhile Char.isDigit
    if 1 ≤ digits.length ∧ digits.length ≤ 5 then (some digits, rest.dropWhile Char.isDigit)
    else (none, cs)
  | _ => (none, cs)

/-- Reads what may follow the port: nothing, a slash, or a slash and a keyprint. -/
def keyprintText? : List Char → Option (Option (List Char))
  | [] => some none
  | ['/'] => some none
  | '/' :: '?' :: 'k' :: 'p' :: '=' :: rest =>
    let digits := (dropLead? "SHA256/".toList rest).getD rest
    if digits.length = Digest.textLength 32 ∧ digits.all (fun c => (Base32.digit? c).isSome) then
      some (some digits)
    else none
  | _ => none

def Parts.ofText? (cs : List Char) : Option Parts :=
  let (scheme, cs) := splitScheme cs
  let host := cs.takeWhile isHostChar
  let (port, cs) := splitPort (cs.dropWhile isHostChar)
  if host.isEmpty then none
  else (keyprintText? cs).map fun keyprint => ⟨scheme, host, port, keyprint⟩

/-- The number of a port between 1 and 65535. -/
def portOfDigits? (digits : List Char) : Option Nat :=
  let n := Count.digitsValue digits
  if 1 ≤ n ∧ n ≤ 65535 then some n else none

def protocolOf : Option (List Char) → Except Error Protocol
  | none => pure .dchub
  | some letters => match Protocol.ofScheme? (String.ofList letters) with
    | some protocol => pure protocol
    | none => throw .malformed

def portOf : Option (List Char) → Except Error Nat
  | none => pure defaultPort
  | some digits => match portOfDigits? digits with
    | some port => pure port
    | none => throw .malformed

def keyprintOf (protocol : Protocol) : Option (List Char) → Except Error (Option Keyprint)
  | none => pure none
  | some digits =>
    if protocol.isTls then
      match Digest.ofText? 32 digits with
      | some keyprint => pure (some keyprint)
      | none => throw .malformed
    else throw .keyprintWithoutTls

/-- The address that the parts name. A bad scheme or port is found before a bad keyprint. -/
def ofParts (p : Parts) : Except Error Address := do
  let protocol ← protocolOf p.scheme
  let port ← portOf p.port
  let keyprint ← keyprintOf protocol p.keyprint
  return ⟨protocol, String.ofList p.host, port, keyprint⟩

/-- Reads an address; blanks around it do not count. -/
def parse (s : String) : Except Error Address :=
  match Parts.ofText? (trim s.toList) with
  | some parts => ofParts parts
  | none => throw .malformed

/-- The address without its keyprint, with protocol and port written out. -/
def canonical (a : Address) : String :=
  a.protocol.scheme ++ "://" ++ a.host ++ ":" ++ Nat.repr a.port ++ "/"

def text (a : Address) : String :=
  match a.keyprint with
  | none => a.canonical
  | some keyprint => a.canonical ++ "?kp=SHA256/" ++ keyprint.text

end Address
end HubConsole
