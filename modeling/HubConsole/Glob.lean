/-! # Glob patterns

Patterns for whole names: `?` is any character, `*` any run, `[..]` a character of a class and
`[!..]` one outside it. A double star stands for whole components between slashes, and only as a
component of its own. -/

namespace HubConsole.Glob

inductive Member where
  | one (c : Char)
  | range (lo hi : Char)
deriving DecidableEq, Repr

def Member.has (c : Char) : Member → Bool
  | one d => c == d
  | range lo hi => lo ≤ c && c ≤ hi

inductive Piece where
  | literal (c : Char)
  | any
  | run
  /-- Any number of whole components. -/
  | components
  | within (members : List Member)
  | outside (members : List Member)
deriving DecidableEq, Repr

def membersOf : List Char → List Member
  | a :: '-' :: b :: rest => .range a b :: membersOf rest
  | a :: rest => .one a :: membersOf rest
  | [] => []

/-- The inside of a class and what follows it. The first character is a member even if it is a
closing bracket. -/
def splitClass? : List Char → Option (List Char × List Char)
  | [] => none
  | first :: rest =>
    match rest.dropWhile (· != ']') with
    | _ :: after => some (first :: rest.takeWhile (· != ']'), after)
    | [] => none

theorem length_of_splitClass? {cs inside after : List Char}
    (h : splitClass? cs = some (inside, after)) : after.length < cs.length := by
  unfold splitClass? at h
  split at h
  · simp at h
  · next first rest =>
    split at h
    · next x tail heq =>
      obtain ⟨-, rfl⟩ := by simpa using h
      have := (List.dropWhile_suffix (l := rest) (· != ']')).length_le
      rw [heq] at this
      simp at this ⊢
      omega
    · simp at h

/-- Reads the pieces of a pattern. `atStart` tells whether a component may begin here. -/
def piecesFrom (atStart : Bool) (cs : List Char) : Option (List Piece) :=
  match cs with
  | [] => some []
  | '*' :: '*' :: '*' :: _ => none
  | '*' :: '*' :: rest =>
    if atStart then
      match rest with
      | [] => some [.components]
      | '/' :: rest => (piecesFrom true rest).map (.components :: ·)
      | _ => none
    else none
  | '*' :: rest => (piecesFrom false rest).map (.run :: ·)
  | '?' :: rest => (piecesFrom false rest).map (.any :: ·)
  | '[' :: '!' :: rest =>
    match _h : splitClass? rest with
    | some (inside, after) => (piecesFrom false after).map (.outside (membersOf inside) :: ·)
    | none => none
  | '[' :: rest =>
    match _h : splitClass? rest with
    | some (inside, after) => (piecesFrom false after).map (.within (membersOf inside) :: ·)
    | none => none
  | c :: rest => (piecesFrom (c == '/') rest).map (.literal c :: ·)
termination_by cs.length
decreasing_by
  all_goals simp only [List.length_cons]
  all_goals try have := length_of_splitClass? ‹splitClass? _ = some _›
  all_goals omega

def parse? (pattern : String) : Option (List Piece) := piecesFrom true pattern.toList

/-- The ends of a text, longest first. -/
def ends : List Char → List (List Char)
  | [] => [[]]
  | c :: cs => (c :: cs) :: ends cs

/-- The ends of a text at which a component can begin, and its empty end. -/
def componentEnds : List Char → List (List Char)
  | [] => [[]]
  | c :: cs => if c = '/' then cs :: componentEnds cs else componentEnds cs

def fits : List Piece → List Char → Bool
  | [], cs => cs.isEmpty
  | .run :: ps, cs => (ends cs).any (fits ps)
  | .components :: ps, cs => fits ps cs || (componentEnds cs).any (fits ps)
  | _ :: _, [] => false
  | .literal d :: ps, c :: cs => c == d && fits ps cs
  | .any :: ps, _ :: cs => fits ps cs
  | .within ms :: ps, c :: cs => ms.any (Member.has c) && fits ps cs
  | .outside ms :: ps, c :: cs => !ms.any (Member.has c) && fits ps cs

def matchesName (pieces : List Piece) (name : String) : Bool := fits pieces name.toList

end HubConsole.Glob
