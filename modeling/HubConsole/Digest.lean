import HubConsole.Base32

/-! # Digests

A digest is a fixed number of bytes, written in base 32. Files are named by the root of their tiger
tree, hub certificates by a keyprint. -/

namespace HubConsole

structure Digest (size : Nat) where
  bytes : List UInt8
  length_bytes : bytes.length = size

/-- The root of a tiger tree: the name of a file's content. -/
abbrev Tth := Digest 24

/-- The SHA-256 digest of a hub's certificate. -/
abbrev Keyprint := Digest 32

namespace Digest
variable {size : Nat}

theorem ext {a b : Digest size} (h : a.bytes = b.bytes) : a = b := by
  cases a; cases b; simp_all

instance : DecidableEq (Digest size) := fun a b =>
  if h : a.bytes = b.bytes then isTrue (ext h) else isFalse fun e => h (congrArg bytes e)

def textLength (size : Nat) : Nat := (8 * size + 4) / 5

def ofText? (size : Nat) (cs : List Char) : Option (Digest size) :=
  if cs.length = textLength size then
    match Base32.decode? cs with
    | some bytes => if h : bytes.length = size then some ⟨bytes, h⟩ else none
    | none => none
  else none

def parse? (size : Nat) (s : String) : Option (Digest size) := ofText? size s.toList

def text (d : Digest size) : String := String.ofList (Base32.encode d.bytes)

end Digest
end HubConsole
