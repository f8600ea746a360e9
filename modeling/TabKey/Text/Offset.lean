import TabKey.Position
import TabKey.Text.Row

namespace TabKey.Text

def rowCount (text : List Char) : Nat := (rows text).length

def rowContent (text : List Char) (row : Nat) : List Char :=
  ((rows text)[row]?.map Row.content).getD []

def startOf (rs : List Row) (row : Nat) : Nat := (unrows (rs.take row)).length

def rowStart (text : List Char) (row : Nat) : Nat := startOf (rows text) row

/-- The nearest position with an existing row and a column within that row's content. -/
def clamp (text : List Char) (p : Position) : Position :=
  let row := min p.row (rowCount text - 1)
  ⟨row, min p.col (rowContent text row).length⟩

def offsetOf (text : List Char) (p : Position) : Nat :=
  let q := clamp text p
  rowStart text q.row + q.col

/-- The row that holds offset `i` and the distance from its start; the last row holds all that is
left. -/
def locate : List Row → Nat → Position
  | [], i => ⟨0, i⟩
  | r :: rest, i =>
    if rest.isEmpty || i < r.raw.length then ⟨0, i⟩ else (locate rest (i - r.raw.length)).below

def positionAt (text : List Char) (i : Nat) : Position := locate (rows text) i

theorem rowCount_pos (text : List Char) : 0 < rowCount text :=
  List.length_pos_iff.2 (rows_ne_nil text)

theorem clamp_row_lt (text : List Char) (p : Position) : (clamp text p).row < rowCount text := by
  have := rowCount_pos text
  simp only [clamp]
  omega

end TabKey.Text
