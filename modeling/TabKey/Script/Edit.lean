import TabKey.Text.Offset
import TabKey.Text.Splice

namespace TabKey.Script

structure Edit where
  row : Nat
  width : Nat
  indent : List Char
deriving DecidableEq, Repr

namespace Edit

/-- Carries out one edit. It never reaches past the row's content, and a row that is not there is
left alone. -/
def apply (e : Edit) (text : List Char) : List Char :=
  if e.row < Text.rowCount text then
    let start := Text.rowStart text e.row
    Text.splice text start (start + min e.width (Text.rowContent text e.row).length) e.indent
  else text

/-- Carries out all edits from the last row up, so that none moves a row that still waits. -/
def applyAll (edits : List Edit) (text : List Char) : List Char :=
  (edits.mergeSort fun a b => a.row ≤ b.row).foldr apply text

end Edit

end TabKey.Script
