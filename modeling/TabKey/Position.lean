namespace TabKey

/-- A point in a text, counted from zero; `col` counts characters from the start of the row. -/
structure Position where
  row : Nat
  col : Nat
deriving DecidableEq, Repr, Inhabited

namespace Position

instance : LT Position := ⟨fun p q => p.row < q.row ∨ (p.row = q.row ∧ p.col < q.col)⟩

instance : LE Position := ⟨fun p q => p.row < q.row ∨ (p.row = q.row ∧ p.col ≤ q.col)⟩

theorem lt_def {p q : Position} : p < q ↔ p.row < q.row ∨ (p.row = q.row ∧ p.col < q.col) := .rfl

theorem le_def {p q : Position} : p ≤ q ↔ p.row < q.row ∨ (p.row = q.row ∧ p.col ≤ q.col) := .rfl

theorem not_lt_of_le {p q : Position} (h : p ≤ q) : ¬ q < p := by
  rw [le_def] at h
  rw [lt_def]
  omega

theorem le_of_lt {p q : Position} (h : p < q) : p ≤ q := by
  rw [lt_def] at h
  rw [le_def]
  omega

theorem le_of_not_lt {p q : Position} (h : ¬p < q) : q ≤ p := by
  rw [lt_def] at h
  rw [le_def]
  omega

theorem lt_or_eq_of_le {p q : Position} (h : p ≤ q) : p < q ∨ p = q := by
  obtain ⟨row, col⟩ := p
  obtain ⟨row', col'⟩ := q
  simp only [le_def] at h
  simp only [lt_def, mk.injEq]
  omega

instance (p q : Position) : Decidable (p < q) := decidable_of_iff _ lt_def.symm

instance (p q : Position) : Decidable (p ≤ q) := decidable_of_iff _ le_def.symm

instance : Min Position := minOfLe

instance : Max Position := maxOfLe

def origin : Position := ⟨0, 0⟩

def below (p : Position) : Position := ⟨p.row + 1, p.col⟩

def toText (p : Position) : String := toString p.row ++ ":" ++ toString p.col

end Position

end TabKey
