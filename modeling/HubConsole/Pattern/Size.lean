import HubConsole.Pattern.Syntax

/-! # The size of compiled patterns

An estimate of the number of bytes that a pattern takes when it is compiled. Copies of a part that
is repeated count one by one, so a short pattern can be too large. -/

namespace HubConsole.Pattern

/-- The number of bytes that a compiled pattern may take. -/
def sizeLimit : Nat := 10485760

def stepSize : Nat := 32

def rangeSize : Nat := 8

def Shorthand.size : Shorthand → Nat
  | .digit => 2500
  | .space => 500
  | .word => 20000

def Atom.size : Atom → Nat
  | .flags _ => 0
  | .char c _ => stepSize * c.utf8Size
  | .dot => 500
  | .shorthand named _ => named.size
  | .property _ => 10000
  | .empty | .assertion | .ascii _ => stepSize

mutual

/-- The size of a part of a class. Characters of one byte share a step. -/
def Node.classSize : Node → Nat
  | .atom _ (.char c _) => rangeSize + stepSize * (c.utf8Size - 1)
  | .atom _ a => a.size
  | .branch _ _ children => classSizes children

def classSizes : List Node → Nat
  | [] => 0
  | n :: ns => n.classSize + classSizes ns

end

mutual

def Node.size : Node → Nat
  | .atom _ a => a.size
  | .branch _ (.repetition copies) children => stepSize + copies * sizes children
  | .branch _ (.brackets _) children => stepSize + classSizes children
  | .branch _ (.group _) children => 2 * stepSize + sizes children
  | .branch _ _ children => sizes children

def sizes : List Node → Nat
  | [] => 0
  | n :: ns => n.size + sizes ns

end

end HubConsole.Pattern
