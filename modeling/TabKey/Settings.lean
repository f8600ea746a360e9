import TabKey.Ahead
import TabKey.Enclosure

namespace TabKey

structure Settings where
  /-- When false, every trigger is the host's own tab. -/
  enable : Bool := true
  /-- White space allowed between the caret and a closer right ahead. -/
  maxGap : Nat := CloserAhead.defaultMaxGap
  /-- Rows above and below the caret that may be read, never more than `Enclosure.maxWindow`. -/
  searchLines : Nat := Enclosure.maxWindow
  /-- Leave the pair before the rules for the start of a line when a closer is right ahead. -/
  eagerJumpOut : Bool := false
deriving DecidableEq, Repr, Inhabited

structure Indent where
  tabWidth : Nat := 4
  insertSpaces : Bool := true
deriving DecidableEq, Repr, Inhabited

namespace Indent

def indentation (indent : Indent) (level : Nat) : List Char :=
  if indent.insertSpaces then List.replicate (level * indent.tabWidth) ' '
  else List.replicate level '\t'

def unit (indent : Indent) : List Char := indent.indentation 1

theorem unit_eq_nil_iff {indent : Indent} :
    indent.unit = [] ↔ indent.insertSpaces ∧ indent.tabWidth = 0 := by
  cases h : indent.insertSpaces <;> simp [unit, indentation, h]

end Indent

end TabKey
