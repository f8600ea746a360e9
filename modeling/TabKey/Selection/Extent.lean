import TabKey.Selection

namespace TabKey

/-- Rows from `next` on that lie in one of the intervals, which are sorted by first row. -/
def rowsFrom (next : Nat) : List (Nat × Nat) → Nat
  | [] => 0
  | (first, last) :: rest =>
    (last + 1 - max first next) + rowsFrom (max next (last + 1)) rest

namespace Selection

def intervals (sel : Selection) : List (Nat × Nat) :=
  (sel.spans.map fun s => (s.firstRow, s.lastRow)).mergeSort fun a b => a.1 ≤ b.1

def rowCount (sel : Selection) : Nat := rowsFrom 0 sel.intervals

end Selection

end TabKey
