import HubConsole.Count
import HubConsole.Setting.Definition
import HubConsole.Text.Ascii
import HubConsole.Text.LowerCase

/-! # Granted slots

Users who may download although all upload slots are in use. A grant is found by the user's name or
by the first digits of the user's id. -/

namespace HubConsole
open Text

abbrev UserId := UInt64

structure Grant where
  hub : HubId
  uid : UserId
  name : String
deriving DecidableEq, Repr

def idText (uid : UserId) : String := String.ofList (hexDigits 16 uid.toNat)

def Grant.text (g : Grant) : String := s!"{g.name} ({idText g.uid})"

structure Grants where
  entries : List Grant
deriving DecidableEq, Repr

namespace Grants

inductive Error where
  | notFound (query : String)
  | ambiguous (query : String) (candidates : List Grant)
deriving DecidableEq, Repr

def Error.message : Error → String
  | notFound query => s!"No granted user matches '{query}'."
  | ambiguous query candidates =>
    s!"'{query}' is ambiguous, it matches " ++ joinWith ", " (candidates.map Grant.text) ++ "."

def empty : Grants := ⟨[]⟩

def holds (gs : Grants) (hub : HubId) (uid : UserId) : Bool :=
  gs.entries.any fun g => g.hub == hub && g.uid == uid

/-- Adds a grant, unless the user holds one on that hub. -/
def add? (gs : Grants) (hub : HubId) (uid : UserId) (name : String) : Option Grants :=
  if gs.holds hub uid then none else some ⟨gs.entries ++ [⟨hub, uid, name⟩]⟩

def places (gs : Grants) (p : Grant → Bool) : List (Grant × Nat) :=
  gs.entries.zipIdx.filter fun e => p e.1

def single (query : String) : List (Grant × Nat) → Except Error Nat
  | [(_, i)] => pure i
  | found => throw (.ambiguous query (found.map Prod.fst))

def isIdStart (cs : List Char) : Bool := !cs.isEmpty && cs.all isHexDigit

/-- The position of the grant that a text names. A name, in any letter case, comes before the
beginning of an id. -/
def find (gs : Grants) (query : String) : Except Error Nat :=
  match gs.places fun g => sameIgnoringCase g.name query with
  | [] =>
    let digits := lowerAsciiAll query
    if isIdStart digits.toList then
      match gs.places fun g => startsWith (idText g.uid) digits with
      | [] => throw (.notFound query)
      | found => single query found
    else throw (.notFound query)
  | found => single query found

def revoke (gs : Grants) (query : String) : Except Error (Grants × Grant) := do
  let i ← gs.find query
  match gs.entries[i]? with
  | some g => return (⟨gs.entries.eraseIdx i⟩, g)
  | none => throw (.notFound query)

/-- The names that start with `lead` in any letter case, in order and each one once. -/
def names (gs : Grants) (lead : String) : List String :=
  let fits := gs.entries.filter fun g => startsWith (lowered g.name) (lowered lead)
  ((fits.map (·.name)).mergeSort fun a b => a ≤ b).eraseDups

end Grants
end HubConsole
