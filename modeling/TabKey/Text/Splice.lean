namespace TabKey.Text

def splice (text : List Char) (start stop : Nat) (insert : List Char) : List Char :=
  text.take start ++ insert ++ text.drop stop

/-- Puts `insert` in place of every stretch. The stretches are sorted and disjoint, and `text` is
what lies from offset `offset` on. -/
def spliceAll (insert : List Char) : (offset : Nat) → List (Nat × Nat) → List Char → List Char
  | _, [], text => text
  | offset, (start, stop) :: rest, text =>
    text.take (start - offset) ++ insert ++
      spliceAll insert stop rest (text.drop (stop - offset))

/-- The offsets right after each insertion of `spliceAll`, where `written` characters come before
the text. -/
def splicedEnds (width : Nat) : (written offset : Nat) → List (Nat × Nat) → List Nat
  | _, _, [] => []
  | written, offset, (start, stop) :: rest =>
    let stopped := written + (start - offset) + width
    stopped :: splicedEnds width stopped stop rest

@[simp] theorem length_splicedEnds (width written offset : Nat) (cuts : List (Nat × Nat)) :
    (splicedEnds width written offset cuts).length = cuts.length := by
  induction cuts generalizing written offset with
  | nil => rfl
  | cons cut rest ih => simp [splicedEnds, ih]

end TabKey.Text
