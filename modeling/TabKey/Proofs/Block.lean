import TabKey.Proofs.Bounds
import TabKey.Proofs.Decision
import TabKey.Proofs.Indentation

namespace TabKey

namespace Text.Row

theorem indentBy_inj {unit : List Char} (hunit : unit ≠ []) {r : Row} {m n : Nat} :
    r.indentBy unit m = r.indentBy unit n ↔ m = n := by
  refine ⟨fun h => ?_, fun h => h ▸ rfl⟩
  have hlength := congrArg (fun r => r.content.length) h
  simp only [length_indentBy] at hlength
  exact Nat.eq_of_mul_eq_mul_right (List.length_pos_iff.mpr hunit) (Nat.add_left_cancel hlength)

end Text.Row

namespace Selection
variable {sel : Selection}

/-- Spans in bounds touch rows of the text only. -/
theorem InBounds.lt_rowCount {text : List Char} (h : sel.InBounds text) {s : Span} (hs : s ∈ sel.spans)
    {row : Nat} (htouch : s.touches row) : row < Text.rowCount text := by
  rw [Span.touches, Bool.and_eq_true, decide_eq_true_eq, decide_eq_true_eq] at htouch
  have hlast := s.lastRow_le
  have hin : s.last.row < Text.rowCount text := by
    rcases s.last_eq with heq | heq
    · exact heq ▸ (h s hs).1.1
    · exact heq ▸ (h s hs).2.1
  omega

theorem InBounds.coverage_eq_zero {text : List Char} (h : sel.InBounds text) {row : Nat}
    (hrow : Text.rowCount text ≤ row) : sel.coverage row = 0 := by
  refine List.countP_eq_zero.mpr fun s hs htouch => ?_
  exact Nat.not_le_of_lt (h.lt_rowCount hs htouch) hrow

def selects (sel : Selection) (row : Nat) : Nat := if ∃ s ∈ sel.spans, s.touches row then 1 else 0

theorem coverage_eq_selects_iff {row : Nat} : sel.coverage row = sel.selects row ↔ sel.coverage row ≤ 1 := by
  have hpos : 0 < sel.coverage row ↔ ∃ s ∈ sel.spans, s.touches row := List.countP_pos_iff
  rw [selects]
  split
  · next h =>
    have := hpos.mpr h
    omega
  · next h =>
    have := mt hpos.mp h
    omega

end Selection

namespace Buffer
variable {b : Buffer} {settings : Settings}

/-- Each row with one unit for every span that touches it. -/
theorem rows_trigger_of_indentBlock (h : (b.trigger settings).1 = .performed .indentBlock) :
    Text.rows (b.trigger settings).2.text =
      (Text.rows b.text).mapIdx fun row r => r.indentBy b.indent.unit (b.selection.coverage row) := by
  rw [trigger_of_performed h, show b.runAll Action.indentBlock.commands = b.indentLines from rfl,
    rows_indentLines, List.mapIdx_eq_mapIdx_iff]
  intro row hrow
  have hlt : row < Text.rowCount b.text := hrow
  rw [depth, if_pos hlt]

def indentedOnce (b : Buffer) : List Text.Row :=
  (Text.rows b.text).mapIdx fun row r => r.indentBy b.indent.unit (b.selection.selects row)

/-- Indenting a block gives exactly one unit to every row that some span touches, and leaves the others as
they are, if and only if no row is touched by two spans. Only an empty unit hides the difference. -/
theorem rows_trigger_eq_indentedOnce_iff (hbounds : b.selection.InBounds b.text)
    (h : (b.trigger settings).1 = .performed .indentBlock) :
    Text.rows (b.trigger settings).2.text = b.indentedOnce ↔
      b.indent.unit = [] ∨ ∀ row, b.selection.coverage row ≤ 1 := by
  rw [rows_trigger_of_indentBlock h, indentedOnce, List.mapIdx_eq_mapIdx_iff]
  by_cases hunit : b.indent.unit = []
  · simp [hunit]
  · simp only [Text.Row.indentBy_inj hunit, Selection.coverage_eq_selects_iff, hunit, false_or]
    constructor
    · intro hone row
      by_cases hrow : row < Text.rowCount b.text
      · exact hone row hrow
      · rw [hbounds.coverage_eq_zero (Nat.le_of_not_lt hrow)]
        exact Nat.zero_le 1
    · exact fun hone row _ => hone row

def twoSelectedWords : Buffer where
  text := ['a', ' ', 'b', '\n', 'c']
  selection := ⟨⟨⟨0, 0⟩, ⟨0, 1⟩⟩, [⟨⟨0, 2⟩, ⟨0, 3⟩⟩]⟩
  indent := { tabWidth := 2 }

/-- A row that two spans touch gets two units. -/
theorem not_forall_rows_trigger_eq_indentedOnce :
    ¬ ∀ (b : Buffer) (settings : Settings), b.selection.InBounds b.text →
      (b.trigger settings).1 = .performed .indentBlock →
        Text.rows (b.trigger settings).2.text = b.indentedOnce := by
  intro h
  have hrows := h twoSelectedWords {} (by decide) (by decide)
  exact absurd hrows (by decide)

def threeSelectedRows : Buffer where
  text := ['a', '\n', 'b', '\n', 'c']
  selection := ⟨⟨⟨1, 1⟩, ⟨0, 0⟩⟩, [⟨⟨2, 0⟩, ⟨2, 1⟩⟩]⟩
  indent := { tabWidth := 2 }

theorem rows_trigger_eq_indentedOnce_threeRows :
    threeSelectedRows.selection.InBounds threeSelectedRows.text ∧
      (threeSelectedRows.trigger {}).1 = .performed .indentBlock ∧
      (Text.rows (threeSelectedRows.trigger {}).2.text = threeSelectedRows.indentedOnce ↔
        threeSelectedRows.indent.unit = [] ∨ ∀ row, threeSelectedRows.selection.coverage row ≤ 1) :=
  ⟨by decide, by decide, rows_trigger_eq_indentedOnce_iff (by decide) (by decide)⟩

end Buffer

end TabKey
