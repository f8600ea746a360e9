import TabKey.Proofs.Block
import TabKey.Proofs.Outdent

namespace TabKey

namespace Span
variable {s : Span} {row : Nat}

/-- A span touches every row from its first to its last, except that one over several rows does not touch the row
at whose start it ends. -/
theorem touches_iff : s.touches row ↔ s.first.row ≤ row ∧ row ≤ s.last.row ∧
    (row = s.last.row → s.first.row = s.last.row ∨ s.last.col ≠ 0) := by
  have hfirst := s.row_first
  have hlast := s.row_last
  rw [touches, Bool.and_eq_true, decide_eq_true_eq, decide_eq_true_eq, firstRow, lastRow]
  split
  · omega
  · omega

/-- Where the two ends lie on different rows, the later one stays the later one. -/
theorem last_map {f : Position → Position} (hf : ∀ p, (f p).row = p.row) (h : s.first.row ≠ s.last.row) :
    (s.map f).last = f s.last := by
  rw [row_first, row_last] at h
  have hanchor := hf s.anchor
  have hhead := hf s.head
  by_cases hle : s.anchor.row < s.head.row
  · have hbefore : s.anchor ≤ s.head := .inl hle
    have hbefore' : (s.map f).anchor ≤ (s.map f).head := .inl (by simp only [map]; omega)
    rw [show s.last = s.head from if_pos hbefore, show (s.map f).last = (s.map f).head from if_pos hbefore']
    rfl
  · have hafter : ¬s.anchor ≤ s.head := by
      rw [Position.le_def]
      omega
    have hafter' : ¬(s.map f).anchor ≤ (s.map f).head := by
      rw [Position.le_def]
      simp only [map]
      omega
    rw [show s.last = s.anchor from if_neg hafter, show (s.map f).last = (s.map f).anchor from if_neg hafter']
    rfl

end Span

namespace Selection
variable {sel : Selection}

theorem any_touches_iff {row : Nat} :
    sel.spans.any (·.touches row) ↔ ∃ s ∈ sel.spans, s.touches row := List.any_eq_true

theorem coverage_pos_iff {row : Nat} : 0 < sel.coverage row ↔ sel.spans.any (·.touches row) := by
  rw [coverage, List.countP_pos_iff, any_touches_iff]

/-- Places that move within rows the selection touches leave it with the rows it touches: a span that no longer
ends at the start of a row has come to touch a row that another one touches. -/
theorem any_touches_map {f : Position → Position} (hrow : ∀ p, (f p).row = p.row)
    (hcol : ∀ p, (f p).col = 0 → p.col = 0)
    (hmoved : ∀ p, f p = p ∨ sel.spans.any (·.touches p.row)) (row : Nat) :
    (sel.map (·.map f)).spans.any (·.touches row) = sel.spans.any (·.touches row) := by
  have hfirst (s : Span) : (s.map f).first.row = s.first.row := by
    rw [Span.row_first, Span.row_first, Span.map, hrow, hrow]
  have hlast (s : Span) : (s.map f).last.row = s.last.row := by
    rw [Span.row_last, Span.row_last, Span.map, hrow, hrow]
  rw [Bool.eq_iff_iff, any_touches_iff, any_touches_iff]
  constructor
  · rintro ⟨t, ht, htouches⟩
    obtain ⟨s, hs, rfl⟩ := mem_spans_map.mp ht
    rw [Span.touches_iff, hfirst, hlast] at htouches
    obtain ⟨hle, hge, hend⟩ := htouches
    by_cases hplain : row = s.last.row ∧ s.first.row ≠ s.last.row
    · obtain ⟨rfl, hrows⟩ := hplain
      rcases hmoved s.last with hkept | htouched
      · refine ⟨s, hs, Span.touches_iff.mpr ⟨hle, hge, fun _ => ?_⟩⟩
        rw [Span.last_map hrow hrows, hkept] at hend
        exact hend rfl
      · exact any_touches_iff.mp htouched
    · exact ⟨s, hs, Span.touches_iff.mpr ⟨hle, hge, fun heq => .inl (by
        by_contra hrows
        exact hplain ⟨heq, hrows⟩)⟩⟩
  · rintro ⟨s, hs, htouches⟩
    obtain ⟨hle, hge, hend⟩ := Span.touches_iff.mp htouches
    refine ⟨s.map f, mem_spans_map.mpr ⟨s, hs, rfl⟩, ?_⟩
    rw [Span.touches_iff, hfirst, hlast]
    refine ⟨hle, hge, fun heq => ?_⟩
    by_cases hrows : s.first.row = s.last.row
    · exact .inl hrows
    · rw [Span.last_map hrow hrows]
      exact .inr fun hzero => (hend heq).elim hrows fun hne => hne (hcol _ hzero)

/-- If no span reaches past the text, the rows of the text with a span on them are all the rows touched. -/
theorem card_covered {n : Nat} (h : ∀ s ∈ sel.spans, s.lastRow < n) :
    ((Finset.range n).filter fun row => 1 ≤ sel.coverage row).card = sel.rowCount := by
  rw [rowCount_eq_card]
  congr 1
  ext row
  rw [Finset.mem_filter, Finset.mem_range, mem_rowSet, ← any_touches_iff, ← coverage_pos_iff, Nat.succ_le_iff,
    and_iff_right_iff_imp]
  intro hcovered
  obtain ⟨s, hs, htouches⟩ := any_touches_iff.mp (coverage_pos_iff.mp hcovered)
  rw [Span.touches, Bool.and_eq_true, decide_eq_true_eq, decide_eq_true_eq] at htouches
  exact htouches.2.trans_lt (h s hs)

end Selection

/-- An empty row that ends in LF does not stand below a lone CR: the two would be one break. -/
theorem Text.Canonical.content_ne_nil {rs : List Text.Row} (h : Text.Canonical rs) {row : Nat} {r : Text.Row}
    (hpos : 0 < row) (hcr : rs[row - 1]?.bind Text.Row.ending = some .cr) (hr : rs[row]? = some r)
    (hlf : r.ending = some .lf) : r.content ≠ [] := by
  induction rs generalizing row with
  | nil => cases hr
  | cons first rs ih =>
    obtain ⟨row, rfl⟩ := Nat.exists_eq_add_one_of_ne_zero hpos.ne'
    rw [Nat.add_sub_cancel] at hcr
    rw [List.getElem?_cons_succ] at hr
    have hne : rs ≠ [] := by
      rintro rfl
      cases hr
    obtain ⟨-, ⟨ending, hending, hapart⟩, hrest⟩ := (Text.canonical_cons hne).mp h
    cases row with
    | zero =>
      obtain ⟨rest, rfl⟩ := List.head?_eq_some_iff.mp (List.head?_eq_getElem? ▸ hr)
      rw [List.getElem?_cons_zero, Option.bind_some, hending] at hcr
      exact fun hempty => hapart (Option.some.inj hcr) (hrest.head?_eq_lf_iff.mpr ⟨hempty, hlf⟩)
    | succ row =>
      rw [List.getElem?_cons_succ] at hcr
      exact ih hrest (Nat.succ_pos row) hcr hr

namespace Buffer
variable {b : Buffer}

/-- Indenting the lines puts one unit at the start of a row for every span that touches it and keeps the rows apart
as they were. Each end of a span moves right with its row, no further than the last column; ends past the text stay.
If no span reaches past the text, as many rows are indented as the selection touches. -/
theorem indentLines_by_coverage (b : Buffer) :
    Text.rows b.indentLines.text =
        ((Text.rows b.text).mapIdx fun row r => r.indentBy b.indent.unit (b.selection.coverage row)) ∧
      b.indentLines.selection = b.selection.map (·.map fun p =>
        if p.row < Text.rowCount b.text then pushed b.indent.unit.length (b.selection.coverage p.row) p else p) ∧
      ((∀ s ∈ b.selection.spans, s.lastRow < Text.rowCount b.text) →
        ((Finset.range (Text.rowCount b.text)).filter fun row => 1 ≤ b.selection.coverage row).card =
          b.selection.rowCount) := by
  refine ⟨?_, ?_, Selection.card_covered⟩
  · rw [rows_indentLines, List.mapIdx_eq_mapIdx_iff]
    intro row hrow
    have hlt : row < Text.rowCount b.text := hrow
    rw [depth, if_pos hlt]
  · rw [selection_indentLines]
    refine congrArg (fun f : Position → Position => b.selection.map (·.map f)) (funext fun p => ?_)
    rw [depth]
    split
    · rfl
    · rfl

def atLastColumn : Buffer where
  text := ['a']
  selection := .caret ⟨0, maxColumn⟩
  indent := { tabWidth := 2 }

/-- A place in the last column has none to its right. -/
theorem not_forall_selection_indentLines :
    ¬∀ b : Buffer, b.indentLines.selection = b.selection.map (·.map fun p =>
      if p.row < Text.rowCount b.text then
        ⟨p.row, p.col + b.selection.coverage p.row * b.indent.unit.length⟩
      else p) := by
  intro h
  exact absurd (h atLastColumn) (by decide)

def overlappingSpans : Buffer where
  text := ['a', '\n', 'b', '\n', 'c']
  selection := ⟨⟨⟨2, 0⟩, ⟨0, 1⟩⟩, [⟨⟨1, 0⟩, ⟨1, 1⟩⟩]⟩
  indent := { tabWidth := 2 }

theorem indentLines_by_coverage_overlapping :
    (∀ s ∈ overlappingSpans.selection.spans, s.lastRow < Text.rowCount overlappingSpans.text) ∧
      ((Finset.range (Text.rowCount overlappingSpans.text)).filter fun row =>
        1 ≤ overlappingSpans.selection.coverage row).card = overlappingSpans.selection.rowCount :=
  ⟨by decide, (indentLines_by_coverage overlappingSpans).2.2 (by decide)⟩

/-- The row of a text with one unit in front loses that unit when it is outdented. -/
theorem outdent_indentBy_one (hunit : b.indent.unit ≠ []) (r : Text.Row) :
    (r.indentBy b.indent.unit 1).outdent b.indent.tabWidth = r := by
  have hcontent : (r.indentBy b.indent.unit 1).content = b.indent.unit ++ r.content := by
    simp [Text.Row.indentBy]
  rw [Text.Row.outdent, hcontent, ← Text.drop_outdentWidth, Indent.outdentWidth_unit_append hunit,
    List.drop_left]
  rfl

/-- Indenting the lines leaves the selection with the rows it touches. -/
theorem any_touches_indentLines (b : Buffer) (row : Nat) :
    b.indentLines.selection.spans.any (·.touches row) = b.selection.spans.any (·.touches row) := by
  rw [selection_indentLines]
  apply Selection.any_touches_map (fun p => pushed_row ..)
  · intro p hzero
    rw [pushed] at hzero
    split at hzero
    · exact hzero
    · have hpos : 0 < maxColumn := by decide
      simp only at hzero
      omega
  · intro p
    by_cases hdepth : b.depth p.row = 0
    · exact .inl (if_pos hdepth)
    · refine .inr (Selection.coverage_pos_iff.mp ?_)
      rw [depth] at hdepth
      split at hdepth
      · exact Nat.pos_of_ne_zero hdepth
      · exact absurd rfl hdepth

theorem touchedRows_indentLines (b : Buffer) : b.indentLines.touchedRows = b.touchedRows := by
  have hcount : Text.rowCount b.indentLines.text = Text.rowCount b.text := by
    rw [Text.rowCount, rows_indentLines, List.length_mapIdx, Text.rowCount]
  simp only [touchedRows, hcount, any_touches_indentLines]

/-- If no row of the text is touched twice, each touched one gains one unit. -/
theorem depth_of_coverage_le_one (hone : ∀ row < Text.rowCount b.text, b.selection.coverage row ≤ 1) (row : Nat) :
    b.depth row = if row ∈ b.touchedRows then 1 else 0 := by
  simp only [mem_touchedRows, ← Selection.coverage_pos_iff]
  rw [depth]
  by_cases hrow : row < Text.rowCount b.text
  · have := hone row hrow
    simp only [hrow, if_true, true_and]
    split <;> omega
  · simp [hrow]

/-- A row that has gained a unit stands apart from the row above it when it is outdented. -/
theorem not_meetsAbove_indentLines (hunit : b.indent.unit ≠ []) {row : Nat} (hdepth : b.depth row = 1) :
    ¬Text.MeetsAbove b.indent.tabWidth (Text.rows b.indentLines.text) row := by
  rintro ⟨hpos, hcr, r, hr, hlf, hempty⟩
  rw [rows_indentLines, List.getElem?_mapIdx] at hcr hr
  obtain ⟨old, hold, rfl⟩ := Option.map_eq_some_iff.mp hr
  have hcr' : (Text.rows b.text)[row - 1]?.bind Text.Row.ending = some .cr := by
    cases habove : (Text.rows b.text)[row - 1]? with
    | none =>
      rw [habove] at hcr
      cases hcr
    | some above =>
      rw [habove] at hcr
      exact hcr
  have hback := congrArg Text.Row.content (outdent_indentBy_one hunit old)
  rw [hdepth] at hempty
  exact (Text.canonical_rows b.text).content_ne_nil hpos hcr' hold hlf (hback.symm.trans hempty)

theorem outdentWidth_indentLines (hunit : b.indent.unit ≠ []) {row : Nat} (hrow : row < Text.rowCount b.text)
    (hdepth : b.depth row = 1) :
    outdentWidth b.indent.tabWidth (Text.rowContent b.indentLines.text row) = b.indent.unit.length := by
  have hget : (Text.rows b.text)[row]? = some (Text.rows b.text)[row] := List.getElem?_eq_getElem hrow
  have hcontent : Text.rowContent b.indentLines.text row =
      b.indent.unit ++ (Text.rows b.text)[row].content := by
    rw [Text.rowContent, rows_indentLines, List.getElem?_mapIdx, hget, hdepth]
    simp [Text.Row.indentBy]
  rw [hcontent, Indent.outdentWidth_unit_append hunit]

/-- Of the rows that one span touches each, outdenting takes back the unit that indenting has put there. The text
comes back as it was, and so does every end of a span but one that indenting could not move its whole way: that one
comes back no further than the column from which there is room for a unit. -/
theorem outdentLines_indentLines (hunit : b.indent.unit ≠ [])
    (hone : ∀ row < Text.rowCount b.text, b.selection.coverage row ≤ 1) :
    b.indentLines.outdentLines.text = b.text ∧
      b.indentLines.outdentLines.selection = b.selection.map (·.map fun p =>
        if p.row < Text.rowCount b.text ∧ b.selection.spans.any (·.touches p.row) then
          ⟨p.row, min p.col (maxColumn - b.indent.unit.length)⟩
        else p) := by
  have hdepth := depth_of_coverage_le_one hone
  have hapart : ∀ row ∈ b.touchedRows,
      ¬Text.MeetsAbove b.indentLines.indent.tabWidth (Text.rows b.indentLines.text) row := by
    intro row hrow
    rw [indent_indentLines]
    exact not_meetsAbove_indentLines hunit (by rw [hdepth, if_pos hrow])
  rw [outdentLines_eq_foldl, touchedRows_indentLines]
  constructor
  · have hrows : Text.rows (b.touchedRows.foldl outdentRow b.indentLines).text = Text.rows b.text := by
      rw [rows_foldl_outdentRow b.nodup_touchedRows hapart, rows_indentLines, indent_indentLines]
      apply List.ext_getElem?
      intro row
      rw [List.getElem?_mapIdx, List.getElem?_mapIdx, hdepth]
      cases (Text.rows b.text)[row]? with
      | none => rfl
      | some r =>
        by_cases hrow : row ∈ b.touchedRows
        · simp [hrow, outdent_indentBy_one hunit]
        · simp [hrow]
    rw [← Text.unrows_rows (b.touchedRows.foldl outdentRow b.indentLines).text, hrows, Text.unrows_rows]
  · rw [selection_foldl_outdentRow b.nodup_touchedRows hapart, selection_indentLines, Selection.map_map]
    refine congrArg (fun f : Position → Position => b.selection.map (·.map f)) (funext fun p => ?_)
    simp only [Function.comp_apply, pushed_row, hdepth, ← mem_touchedRows]
    by_cases hrow : p.row ∈ b.touchedRows
    · have hwidth := outdentWidth_indentLines hunit (mem_touchedRows.mp hrow).1 (by rw [hdepth, if_pos hrow])
      simp only [hrow, if_true, indent_indentLines, hwidth, pushed, one_ne_zero, if_false, one_mul,
        Position.mk.injEq, true_and]
      omega
    · simp [hrow, pushed]

/-- A place that indenting could not move does not stay when outdenting moves it back. -/
theorem not_forall_outdentLines_indentLines :
    ¬∀ b : Buffer, b.indent.unit ≠ [] → (∀ row < Text.rowCount b.text, b.selection.coverage row ≤ 1) →
      b.indentLines.outdentLines.text = b.text ∧ b.indentLines.outdentLines.selection = b.selection := by
  intro h
  exact absurd (h atLastColumn (by decide) (by decide)).2 (by decide)

def spansInTurn : Buffer where
  text := ['\t', 'a', '\r', ' ', 'b', '\n', 'c']
  selection := ⟨⟨⟨0, 1⟩, ⟨1, 0⟩⟩, [⟨⟨1, 2⟩, ⟨1, 0⟩⟩]⟩
  indent := { tabWidth := 2 }

theorem outdentLines_indentLines_spansInTurn :
    spansInTurn.indent.unit ≠ [] ∧
      (∀ row < Text.rowCount spansInTurn.text, spansInTurn.selection.coverage row ≤ 1) ∧
      spansInTurn.indentLines.outdentLines.text = spansInTurn.text ∧
      spansInTurn.indentLines.outdentLines.selection = spansInTurn.selection.map (·.map fun p =>
        if p.row < Text.rowCount spansInTurn.text ∧ spansInTurn.selection.spans.any (·.touches p.row) then
          ⟨p.row, min p.col (maxColumn - spansInTurn.indent.unit.length)⟩
        else p) :=
  ⟨by decide, by decide, outdentLines_indentLines (by decide) (by decide)⟩

end Buffer

end TabKey
