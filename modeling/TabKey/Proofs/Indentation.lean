import Mathlib.Data.List.Count
import TabKey.Buffer
import TabKey.Proofs.Extent
import TabKey.Proofs.Rows

namespace TabKey

namespace Indent

/-- A unit is made of one character, which is a space or a tab. -/
theorem unit_eq_replicate (indent : Indent) :
    ∃ n c, Text.LineBreak.ofChar? c = none ∧ indent.unit = List.replicate n c := by
  cases h : indent.insertSpaces with
  | false => exact ⟨1, '\t', rfl, by simp [unit, indentation, h]⟩
  | true => exact ⟨indent.tabWidth, ' ', rfl, by simp [unit, indentation, h]⟩

theorem unbroken_unit (indent : Indent) : Text.Unbroken indent.unit := by
  obtain ⟨n, c, hc, hunit⟩ := indent.unit_eq_replicate
  rw [hunit]
  exact .replicate n hc

/-- One outdent takes exactly one unit from a line that starts with one. -/
theorem outdentWidth_unit_append {indent : Indent} (h : indent.unit ≠ []) (rest : List Char) :
    Buffer.outdentWidth indent.tabWidth (indent.unit ++ rest) = indent.unit.length := by
  cases hspaces : indent.insertSpaces with
  | false => simp [unit, indentation, hspaces, Buffer.outdentWidth]
  | true =>
    have hunit : indent.unit = List.replicate indent.tabWidth ' ' := by
      simp [unit, indentation, hspaces]
    obtain ⟨width, hwidth⟩ : ∃ width, indent.tabWidth = width + 1 :=
      Nat.exists_eq_succ_of_ne_zero fun hzero => h (by rw [hunit, hzero]; rfl)
    have hhead : (List.replicate (width + 1) ' ' ++ rest).head? ≠ some '\t' := by
      simp [List.replicate_succ]
    rw [hunit, hwidth, Buffer.outdentWidth, if_neg hhead, Nat.max_eq_left (by omega),
      List.take_left' List.length_replicate, List.takeWhile_replicate]
    simp

end Indent

namespace Text

def Row.indentBy (unit : List Char) (times : Nat) (r : Row) : Row :=
  ⟨(List.replicate times unit).flatten ++ r.content, r.ending⟩

@[simp] theorem Row.indentBy_zero (unit : List Char) (r : Row) : r.indentBy unit 0 = r := rfl

@[simp] theorem Row.indentBy_nil (r : Row) (times : Nat) : r.indentBy [] times = r := by
  simp [indentBy]

theorem Row.length_indentBy (unit : List Char) (times : Nat) (r : Row) :
    (r.indentBy unit times).content.length = r.content.length + times * unit.length := by
  simp [indentBy, Nat.add_comm]

theorem Row.indentBy_indentBy (unit : List Char) (m n : Nat) (r : Row) :
    (r.indentBy unit m).indentBy unit n = r.indentBy unit (n + m) := by
  simp only [indentBy, List.replicate_add, List.flatten_append, List.append_assoc]

/-- One unit for one row is none for all others. -/
theorem modify_indentBy (unit : List Char) (rs : List Row) (row : Nat) :
    rs.modify row (Row.indentBy unit 1) = rs.mapIdx fun i r => r.indentBy unit (if i = row then 1 else 0) := by
  apply List.ext_getElem?
  intro i
  rw [List.getElem?_modify, List.getElem?_mapIdx]
  cases rs[i]? with
  | none => rfl
  | some r =>
    by_cases hi : row = i
    · simp [hi]
    · simp [hi, Ne.symm hi]

/-- A unit put in at the start of a row goes before that row's content. -/
theorem rows_splice_rowStart {text unit : List Char} {row : Nat} (h : row < rowCount text)
    (hunit : Unbroken unit) :
    rows (splice text (rowStart text row) (rowStart text row) unit) =
      (rows text).modify row (Row.indentBy unit 1) := by
  have hrow : (rows text)[row]? = some (rows text)[row] := List.getElem?_eq_getElem h
  have hsplice := rows_splice hrow hunit (Nat.le_refl 0) (Nat.zero_le _) fun hempty =>
    (List.append_eq_nil_iff.mp hempty).2
  rw [Nat.add_zero] at hsplice
  rw [hsplice, List.modify_eq_set_getElem?, hrow]
  simp [splice, Row.indentBy]

end Text

namespace Buffer

def pushed (width times : Nat) (p : Position) : Position :=
  if times = 0 then p else ⟨p.row, min (p.col + times * width) maxColumn⟩

@[simp] theorem pushed_row (width times : Nat) (p : Position) : (pushed width times p).row = p.row := by
  unfold pushed
  split <;> rfl

theorem pushed_col_le (width times : Nat) (p : Position) :
    (pushed width times p).col ≤ p.col + times * width := by
  unfold pushed
  split
  · exact Nat.le_add_right _ _
  · exact Nat.min_le_left _ _

private theorem pushed_shiftRight (width row : Nat) (rest : List Nat) (p : Position) :
    pushed width (rest.count (shiftRight row width p).row) (shiftRight row width p) =
      pushed width ((row :: rest).count p.row) p := by
  by_cases h : p.row = row
  · subst h
    have hmul : (rest.count p.row + 1) * width = rest.count p.row * width + width := Nat.succ_mul _ _
    rw [shiftRight, if_pos rfl, List.count_cons_self]
    simp only [pushed]
    by_cases hzero : rest.count p.row = 0
    · simp [hzero]
    · rw [if_neg hzero, if_neg (Nat.succ_ne_zero _)]
      simp only [Position.mk.injEq, true_and]
      omega
  · rw [shiftRight, if_neg h, List.count_cons_of_ne (Ne.symm h)]

/-- Indenting rows one after another, each as often as it is listed. -/
private theorem foldl_indentRow (b : Buffer) (listed : List Nat)
    (h : ∀ row ∈ listed, row < Text.rowCount b.text) :
    Text.rows (listed.foldl indentRow b).text =
        ((Text.rows b.text).mapIdx fun row r => r.indentBy b.indent.unit (listed.count row)) ∧
      (listed.foldl indentRow b).selection =
        b.selection.map (·.map fun p => pushed b.indent.unit.length (listed.count p.row) p) ∧
      (listed.foldl indentRow b).indent = b.indent := by
  induction listed generalizing b with
  | nil =>
    refine ⟨?_, by simp [pushed, Selection.map_id], rfl⟩
    rw [eq_comm, List.mapIdx_eq_iff]
    simp
  | cons row rest ih =>
    have hrow : row < Text.rowCount b.text := h row List.mem_cons_self
    have hrows := Text.rows_splice_rowStart hrow b.indent.unbroken_unit
    have hcount : Text.rowCount (b.indentRow row).text = Text.rowCount b.text := by
      rw [Text.rowCount, indentRow, hrows, List.length_modify, Text.rowCount]
    obtain ⟨htext, hselection, hindent⟩ := ih (b.indentRow row) fun r hr => by
      rw [hcount]
      exact h r (List.mem_cons_of_mem _ hr)
    rw [List.foldl_cons]
    refine ⟨?_, ?_, hindent⟩
    · rw [htext]
      simp only [indentRow, hrows]
      apply List.ext_getElem?
      intro i
      rw [List.getElem?_mapIdx, List.getElem?_modify, List.getElem?_mapIdx, List.count_cons]
      cases (Text.rows b.text)[i]? with
      | none => rfl
      | some r =>
        by_cases hi : row = i
        · simp [hi, Text.Row.indentBy_indentBy]
        · simp [hi]
    · rw [hselection]
      simp only [indentRow, Selection.map_map, Function.comp_def, pushed_shiftRight]

/-- How many units indenting the lines gives to a row. -/
def depth (b : Buffer) (row : Nat) : Nat :=
  if row < Text.rowCount b.text then b.selection.coverage row else 0

private theorem mem_rowsOf {b : Buffer} {s : Span} {row : Nat} :
    row ∈ b.rowsOf s ↔ row < Text.rowCount b.text ∧ s.touches row := by
  simp only [rowsOf, List.mem_range'_1, Span.touches, Bool.and_eq_true, decide_eq_true_eq]
  omega

private theorem count_rowsOf {b : Buffer} {row : Nat} (s : Span) (h : row < Text.rowCount b.text) :
    (b.rowsOf s).count row = if s.touches row then 1 else 0 := by
  split
  · next htouches => exact List.count_eq_one_of_mem List.nodup_range' (mem_rowsOf.mpr ⟨h, htouches⟩)
  · next htouches => exact List.count_eq_zero_of_not_mem fun hmem => htouches (mem_rowsOf.mp hmem).2

/-- A span indents every row of the text that it touches once. -/
private theorem count_flatMap_rowsOf (b : Buffer) (row : Nat) :
    (b.selection.spans.flatMap b.rowsOf).count row = b.depth row := by
  by_cases h : row < Text.rowCount b.text
  · rw [depth, if_pos h, Selection.coverage]
    induction b.selection.spans with
    | nil => rfl
    | cons s rest ih =>
      rw [List.flatMap_cons, List.count_append, ih, count_rowsOf s h, List.countP_cons, Nat.add_comm]
  · rw [depth, if_neg h, List.count_eq_zero]
    intro hmem
    obtain ⟨s, -, hs⟩ := List.mem_flatMap.mp hmem
    exact h (mem_rowsOf.mp hs).1

private theorem indentLines_spec (b : Buffer) :
    Text.rows b.indentLines.text =
        ((Text.rows b.text).mapIdx fun row r => r.indentBy b.indent.unit (b.depth row)) ∧
      b.indentLines.selection =
        b.selection.map (·.map fun p => pushed b.indent.unit.length (b.depth p.row) p) ∧
      b.indentLines.indent = b.indent := by
  have h := foldl_indentRow b (b.selection.spans.flatMap b.rowsOf) fun row hrow => by
    obtain ⟨s, -, hs⟩ := List.mem_flatMap.mp hrow
    exact (mem_rowsOf.mp hs).1
  simp only [count_flatMap_rowsOf] at h
  exact h

/-- Indenting the lines gives each row one unit for every span that touches it. -/
theorem rows_indentLines (b : Buffer) :
    Text.rows b.indentLines.text =
      (Text.rows b.text).mapIdx fun row r => r.indentBy b.indent.unit (b.depth row) :=
  (indentLines_spec b).1

/-- Both ends of every span move by as many units as their row gains. -/
theorem selection_indentLines (b : Buffer) :
    b.indentLines.selection =
      b.selection.map (·.map fun p => pushed b.indent.unit.length (b.depth p.row) p) :=
  (indentLines_spec b).2.1

@[simp] theorem indent_indentLines (b : Buffer) : b.indentLines.indent = b.indent :=
  (indentLines_spec b).2.2

/-- Outdenting a row that starts with one unit takes that unit back, and the carets with it. -/
theorem outdentRow_of_unit {b : Buffer} {row : Nat} {rest : List Char} {ending : Option Text.LineBreak}
    (hrow : (Text.rows b.text)[row]? = some ⟨b.indent.unit ++ rest, ending⟩)
    (hunit : b.indent.unit ≠ []) (hrest : rest ≠ []) :
    Text.rows (b.outdentRow row).text = (Text.rows b.text).set row ⟨rest, ending⟩ ∧
      (b.outdentRow row).selection = b.selection.map (·.map (shiftLeft row b.indent.unit.length)) ∧
      (b.outdentRow row).indent = b.indent := by
  have hwidth : outdentWidth b.indent.tabWidth (Text.rowContent b.text row) = b.indent.unit.length := by
    rw [Text.rowContent, hrow]
    exact Indent.outdentWidth_unit_append hunit rest
  have hlt : row < Text.rowCount b.text := (List.getElem?_eq_some_iff.mp hrow).1
  have hpos : 0 < b.indent.unit.length := List.length_pos_iff.mpr hunit
  have hcut : Text.splice (b.indent.unit ++ rest) 0 b.indent.unit.length [] = rest := by
    simp [Text.splice]
  have hrows := Text.rows_splice hrow .nil (Nat.zero_le b.indent.unit.length) (by simp) fun hempty =>
    absurd (hcut.symm.trans hempty) hrest
  rw [hcut] at hrows
  rw [outdentRow, hwidth, if_pos ⟨hlt, hpos⟩]
  exact ⟨hrows, rfl, rfl⟩

/-- Carets that share a row give it one unit each and leave the other rows as they are. -/
theorem depth_of_caretsOn {b : Buffer} {row : Nat} (h : b.selection.CaretsOn row)
    (hrow : row < Text.rowCount b.text) :
    b.depth = fun i => if i = row then b.selection.count else 0 := by
  funext i
  rw [depth, Selection.coverage]
  by_cases hi : i = row
  · rw [if_pos (hi ▸ hrow), if_pos hi, Selection.count]
    exact List.countP_eq_length.mpr fun s hs => (h.touches_iff hs).mpr hi
  · rw [if_neg hi]
    split
    · exact List.countP_eq_zero.mpr fun s hs htouch => hi ((h.touches_iff hs).mp htouch)
    · rfl

/-- Carets that share a row have it outdented, and no other row. -/
theorem outdentLines_of_caretsOn {b : Buffer} {row : Nat} (h : b.selection.CaretsOn row)
    (hrow : row < Text.rowCount b.text) : b.outdentLines = b.outdentRow row := by
  have htouched : (fun i => b.selection.spans.any (·.touches i)) = fun i => i == row := by
    funext i
    rw [Bool.eq_iff_iff, List.any_eq_true, beq_iff_eq]
    constructor
    · rintro ⟨s, hs, htouch⟩
      exact (h.touches_iff hs).mp htouch
    · intro hi
      exact ⟨_, b.selection.primary_mem_spans, (h.touches_iff b.selection.primary_mem_spans).mpr hi⟩
  rw [outdentLines, htouched, List.filter_beq, List.count_range, if_pos hrow]
  rfl

end Buffer

end TabKey
