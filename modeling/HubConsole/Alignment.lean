/-! # How well a typed name fits a known one

The score of a typed text against a name is that of its best alignment as a subsequence: each
matched character counts, more so at the start of a word or after another match, and gaps cost. A
text that is no subsequence of the name has no score. -/

namespace HubConsole.Alignment

def isHardGap (c : Char) : Bool := " /\\|()[]\x7b\x7d".toList.contains c

def isSoftGap (c : Char) : Bool :=
  ('!' ≤ c && c ≤ '/') || (':' ≤ c && c ≤ '@') || ('[' ≤ c && c ≤ '\x60') || c == '~'

/-- What a match of `c` after `before` is worth beyond the match itself: most at the start of the
name and after punctuation, and less for an upper-case letter that follows no other one. -/
def bonus (before : Option Char) (c : Char) : Int :=
  match before with
  | none => 16
  | some b =>
    if isHardGap b then 8
    else if isSoftGap b then 7
    else if c.isUpper && !b.isUpper then 6
    else 0

def bonuses (before : Option Char) : List Char → List (Char × Int)
  | [] => []
  | c :: cs => (c, bonus before c) :: bonuses (some c) cs

/-- One field of the table for a row of the typed text: the best scores of an alignment that ends
with a match here and of one that ends with a gap. `reached` tells whether the row's text can end at
or before this place. -/
structure Cell where
  hit : Int
  gap : Int
  reached : Bool
deriving DecidableEq, Repr

/-- Stands for an alignment that does not exist. -/
def floor : Int := -32768

/-- The score of two characters, if they match. With `exact` letter case has to agree. -/
def charScore? (exact : Bool) (p c : Char) : Option Int :=
  if p = c then some 16
  else if !exact && p.toLower = c.toLower then some 14
  else none

def step (exact : Bool) (p : Char) (c : Char × Int) (diagonal left : Cell) : Cell :=
  let score := charScore? exact p c.1
  if left.reached || (diagonal.reached && score.isSome) then
    { hit := match score with
        | some s => s + max (diagonal.hit + max c.2 4) (diagonal.gap + c.2)
        | none => floor
      gap := max (left.hit - 4) (left.gap - 1)
      reached := true }
  else ⟨floor, floor, false⟩

/-- The row of the typed character `p` below a row whose cells are `diagonal` and `above`. -/
def rowFrom (exact : Bool) (p : Char) (diagonal left : Cell) :
    List (Char × Int) → List Cell → List Cell
  | c :: cs, cell :: above =>
    let here := step exact p c diagonal left
    here :: rowFrom exact p cell here cs above
  | _, _ => []

/-- The row of `p` below `above`. The field before the first character is never reached. -/
def nextRow (exact : Bool) (name : List (Char × Int)) (above : List Cell) (p : Char) : List Cell :=
  match above with
  | [] => []
  | diagonal :: above =>
    let start : Cell := ⟨floor, floor, false⟩
    start :: rowFrom exact p diagonal start name above

/-- The score of `typed` against `name`. Letter case counts only if `typed` has an upper-case
letter. -/
def score? (name typed : String) : Option Int :=
  let chars := bonuses none name.toList
  let exact := typed.toList.any Char.isUpper
  let top : List Cell := List.replicate (chars.length + 1) ⟨floor, -1, true⟩
  let last := typed.toList.foldl (nextRow exact chars) top
  match last.filter (·.reached) with
  | [] => none
  | cell :: cells => some (cells.foldl (fun best c => max best c.hit) cell.hit)

end HubConsole.Alignment
