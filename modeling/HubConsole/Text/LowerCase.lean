import HubConsole.Text.Basic
import HubConsole.Text.CaseTable

/-! # Lower case of whole texts

`lower` is the lower-case mapping of Unicode for whole texts: characters map by table, a capital I
with a dot becomes two characters, and a capital sigma takes its final form at the end of a word. -/

namespace HubConsole.Text

def inRows (rows : List (Nat × Nat)) (n : Nat) : Bool :=
  rows.any fun r => r.1 ≤ n && n ≤ r.2

def isCased (c : Char) : Bool := inRows casedRows c.toNat

def isCaseIgnorable (c : Char) : Bool := inRows ignorableRows c.toNat

def lowerChar (c : Char) : Char :=
  let n := c.toNat
  match lowerRows.find? fun r => r.1 ≤ n && n ≤ r.2.1 && (n - r.1) % r.2.2.1 == 0 with
  | some r => Char.ofNat (n - r.1 + r.2.2.2)
  | none => c

/-- Whether the first character that counts has case. -/
def leadsWithCased (cs : List Char) : Bool :=
  match cs.dropWhile isCaseIgnorable with
  | c :: _ => isCased c
  | [] => false

/-- Lower case of `cs` where `before` holds the characters already passed, last one first. -/
def lowerFrom (before : List Char) : List Char → List Char
  | [] => []
  | c :: cs =>
    let out :=
      if c = 'Σ' then
        if leadsWithCased before && !leadsWithCased cs then ['ς'] else ['σ']
      else if c = 'İ' then ['i', '\u0307']
      else [lowerChar c]
    out ++ lowerFrom (c :: before) cs

def lower (cs : List Char) : List Char := lowerFrom [] cs

def lowered (s : String) : String := String.ofList (lower s.toList)

@[simp] theorem toList_lowered (s : String) : (lowered s).toList = lower s.toList := by
  simp [lowered]

end HubConsole.Text
