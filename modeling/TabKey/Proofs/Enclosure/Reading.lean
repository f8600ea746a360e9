import TabKey.Proofs.Enclosure.LineWalk

namespace TabKey

namespace Mark

def rowsFrom (marksOn : Nat → List Mark) (first count : Nat) : List Mark :=
  (List.range' first count).flatMap marksOn

section
variable {marksOn : Nat → List Mark}

theorem rowsFrom_add (first m n : Nat) :
    rowsFrom marksOn first (m + n) = rowsFrom marksOn first m ++ rowsFrom marksOn (first + m) n := by
  rw [rowsFrom, ← List.range'_append_1, List.flatMap_append]
  rfl

theorem rowsFrom_one (row : Nat) : rowsFrom marksOn row 1 = marksOn row := List.flatMap_singleton _ _

/-- Rows without brackets at the end might as well not be there. -/
theorem rowsFrom_add_of_past {first count : Nat} (h : ∀ row, first + count ≤ row → marksOn row = []) (extra : Nat) :
    rowsFrom marksOn first (count + extra) = rowsFrom marksOn first count := by
  have hpast : rowsFrom marksOn (first + count) extra = [] :=
    List.flatMap_eq_nil_iff.mpr fun row hrow => h row (List.mem_range'_1.mp hrow).1
  rw [rowsFrom_add, hpast, List.append_nil]

theorem row_of_mem_rowsFrom (hrow : ∀ row, ∀ m ∈ marksOn row, m.place.row = row) {first count : Nat} {m : Mark}
    (h : m ∈ rowsFrom marksOn first count) : first ≤ m.place.row ∧ m.place.row < first + count := by
  obtain ⟨row, hmem, hm⟩ := List.mem_flatMap.mp h
  rw [hrow row m hm]
  exact List.mem_range'_1.mp hmem

/-- Rows in text order have their ends in text order. -/
theorem rowsFrom_pairwise (hrow : ∀ row, ∀ m ∈ marksOn row, m.place.row = row)
    (hsorted : ∀ row, (marksOn row).Pairwise fun a b => a.place < b.place) (first count : Nat) :
    (rowsFrom marksOn first count).Pairwise fun a b => a.place < b.place := by
  refine List.pairwise_flatMap.mpr ⟨fun row _ => hsorted row, ?_⟩
  refine (List.pairwise_lt_range' 1).imp fun hlt a ha b hb => ?_
  rw [Position.lt_def, hrow _ a ha, hrow _ b hb]
  exact .inl hlt

end

end Mark

namespace Enclosure

/-- What the walks from a caret see of a document: on each row its bracket ends, those of the caret's own row parted
at the caret. -/
structure Reading (doc : Document) (caret : Position) where
  marksOn : Nat → List Mark
  left : List Mark
  right : List Mark
  parted : marksOn caret.row = left ++ right
  row_eq : ∀ row, ∀ m ∈ marksOn row, m.place.row = row
  structural : ∀ row, ∀ m ∈ marksOn row, m.delimiter.kind = .structural
  left_lt : ∀ m ∈ left, m.place.col < caret.col
  le_right : ∀ m ∈ right, caret.col ≤ m.place.col
  opener_here : ∀ depth,
    (openerBefore true depth 0 ((doc.glyphs caret.row).take caret.col).reverse).map (onRow caret.row) =
      Mark.unclosed depth left.reverse
  opener_above : ∀ row < caret.row, ∀ depth,
    (openerBefore false depth 0 (doc.glyphs row).reverse).map (onRow row) = Mark.unclosed depth (marksOn row).reverse
  closer_here : ∀ d : Delimiter, d.kind = .structural → ∀ depth,
    (closerAfter d depth 0 (min caret.col (doc.line caret.row).length)
      ((doc.glyphs caret.row).drop (min caret.col (doc.line caret.row).length))).map (Position.mk caret.row) =
        (Mark.unopened d depth right).map Position.next
  closer_below : ∀ row, caret.row < row → ∀ d : Delimiter, d.kind = .structural → ∀ depth,
    (closerAfter d depth 0 0 (doc.glyphs row)).map (Position.mk row) =
      (Mark.unopened d depth (marksOn row)).map Position.next

namespace Reading
variable {doc : Document} {caret : Position} (r : Reading doc caret)

def before (window : Nat) : List Mark :=
  Mark.rowsFrom r.marksOn (caret.row - window) (min caret.row window) ++ r.left

def after (window : Nat) : List Mark := r.right ++ Mark.rowsFrom r.marksOn (caret.row + 1) window

/-- Rows above are one search over their brackets. -/
theorem openerAbove_eq (window depth row : Nat) (hrow : row ≤ caret.row) :
    openerAbove doc window depth row =
      (Mark.unclosed depth (Mark.rowsFrom r.marksOn (row - window) (min row window)).reverse).found? := by
  induction window generalizing depth row with
  | zero => rw [Nat.min_zero]; rfl
  | succ window ih =>
    cases row with
    | zero => rw [Nat.zero_min]; rfl
    | succ row =>
      have hwhole : row - window + min row window = row := by omega
      rw [Nat.add_sub_add_right, Nat.add_min_add_right, Mark.rowsFrom_add, hwhole, Mark.rowsFrom_one,
        List.reverse_append, Mark.unclosed_append, ← r.opener_above row (Nat.lt_of_succ_le hrow), openerAbove]
      cases openerBefore false depth 0 (doc.glyphs row).reverse with
      | hit found => rfl
      | past k => exact ih k row (Nat.le_of_succ_le hrow)

/-- The search to the left sees the brackets before the caret in the rows of the window. -/
theorem opener?_eq (window : Nat) :
    opener? doc window caret = (Mark.unclosed 0 (r.before window).reverse).found? := by
  rw [before, List.reverse_append, Mark.unclosed_append, ← r.opener_here, opener?]
  cases openerBefore true 0 0 ((doc.glyphs caret.row).take caret.col).reverse with
  | hit found => rfl
  | past k => exact r.openerAbove_eq window k caret.row (Nat.le_refl _)

/-- Rows below are one search over their brackets. -/
theorem closerBelow_eq {d : Delimiter} (hd : d.kind = .structural) (window depth row : Nat) (hrow : caret.row < row) :
    closerBelow doc d window depth row =
      ((Mark.unopened d depth (Mark.rowsFrom r.marksOn row window)).map Position.next).found? := by
  induction window generalizing depth row with
  | zero => rfl
  | succ window ih =>
    rw [Nat.add_comm window, Mark.rowsFrom_add, Mark.rowsFrom_one, Mark.unopened_append, Walk.map_andThen,
      ← r.closer_below row hrow d hd, Nat.add_comm 1, closerBelow]
    cases closerAfter d depth 0 0 (doc.glyphs row) with
    | hit col => rfl
    | past k => exact ih k (row + 1) (Nat.lt_succ_of_lt hrow)

/-- The search to the right sees the brackets after the caret in the rows of the window. -/
theorem closer?_eq {d : Delimiter} (hd : d.kind = .structural) (window : Nat) :
    closer? doc d window caret = ((Mark.unopened d 0 (r.after window)).map Position.next).found? := by
  rw [after, Mark.unopened_append, Walk.map_andThen, ← r.closer_here d hd, closer?, hd]
  simp only
  cases closerAfter d 0 0 (min caret.col (doc.line caret.row).length)
      ((doc.glyphs caret.row).drop (min caret.col (doc.line caret.row).length)) with
  | hit col => rfl
  | past k => exact r.closerBelow_eq hd window k (caret.row + 1) (Nat.lt_succ_self _)

theorem left_row {m : Mark} (h : m ∈ r.left) : m.place.row = caret.row :=
  r.row_eq _ m (r.parted ▸ List.mem_append_left _ h)

theorem right_row {m : Mark} (h : m ∈ r.right) : m.place.row = caret.row :=
  r.row_eq _ m (r.parted ▸ List.mem_append_right _ h)

theorem structural_of_mem_before {window : Nat} {m : Mark} (h : m ∈ r.before window) :
    m.delimiter.kind = .structural := by
  rcases List.mem_append.mp h with h | h
  · obtain ⟨row, -, hm⟩ := List.mem_flatMap.mp h
    exact r.structural row m hm
  · exact r.structural _ m (r.parted ▸ List.mem_append_left _ h)

theorem le_row_of_mem_before {window : Nat} {m : Mark} (h : m ∈ r.before window) :
    caret.row - window ≤ m.place.row := by
  rcases List.mem_append.mp h with h | h
  · exact (Mark.row_of_mem_rowsFrom r.row_eq h).1
  · exact r.left_row h ▸ Nat.sub_le _ _

theorem row_le_of_mem_after {window : Nat} {m : Mark} (h : m ∈ r.after window) :
    m.place.row ≤ caret.row + window := by
  rcases List.mem_append.mp h with h | h
  · exact r.right_row h ▸ Nat.le_add_right _ _
  · have := (Mark.row_of_mem_rowsFrom r.row_eq h).2
    omega

/-- The brackets of the document, cut at the caret and at the two ends of the window. -/
theorem marks_cut {count : Nat} (h : ∀ row, count ≤ row → r.marksOn row = []) (window : Nat) :
    Mark.rowsFrom r.marksOn 0 count =
      (Mark.rowsFrom r.marksOn 0 (caret.row - window) ++ r.before window) ++
        (r.after window ++ Mark.rowsFrom r.marksOn (caret.row + 1 + window) count) := by
  have hrow : caret.row - window + min caret.row window = caret.row := by omega
  have hcount : count + (caret.row + 1 + window) =
      (caret.row - window) + (min caret.row window + (1 + (window + count))) := by omega
  rw [← Mark.rowsFrom_add_of_past (fun row hle => h row (by omega)) (caret.row + 1 + window), hcount,
    Mark.rowsFrom_add, Nat.zero_add, Mark.rowsFrom_add, hrow, Mark.rowsFrom_add, Mark.rowsFrom_one, r.parted,
    Mark.rowsFrom_add, before, after]
  simp only [List.append_assoc]

theorem lt_caret_of_mem_before {window : Nat} {m : Mark} (h : m ∈ r.before window) : m.place < caret := by
  rcases List.mem_append.mp h with h | h
  · have := Mark.row_of_mem_rowsFrom r.row_eq h
    exact .inl (by omega)
  · exact .inr ⟨r.left_row h, r.left_lt m h⟩

theorem caret_le_of_mem_after {window : Nat} {m : Mark} (h : m ∈ r.after window) : caret ≤ m.place := by
  rcases List.mem_append.mp h with h | h
  · exact .inr ⟨(r.right_row h).symm, r.le_right m h⟩
  · have := Mark.row_of_mem_rowsFrom r.row_eq h
    exact .inl (by omega)

theorem lt_caret_of_mem {window : Nat} {m : Mark}
    (h : m ∈ Mark.rowsFrom r.marksOn 0 (caret.row - window) ++ r.before window) : m.place < caret := by
  rcases List.mem_append.mp h with h | h
  · have := Mark.row_of_mem_rowsFrom r.row_eq h
    exact .inl (by omega)
  · exact r.lt_caret_of_mem_before h

theorem caret_le_of_mem {window count : Nat} {m : Mark}
    (h : m ∈ r.after window ++ Mark.rowsFrom r.marksOn (caret.row + 1 + window) count) : caret ≤ m.place := by
  rcases List.mem_append.mp h with h | h
  · exact r.caret_le_of_mem_after h
  · have := Mark.row_of_mem_rowsFrom r.row_eq h
    exact .inl (by omega)

/-- A pair is found where both searches among the brackets of the window succeed. -/
theorem within?_eq_some_iff {window : Nat} {e : Enclosure} :
    within? doc window caret = some e ↔
      ∃ d o c, Mark.unclosed 0 (r.before window).reverse = .hit (d, o) ∧
        Mark.unopened d 0 (r.after window) = .hit c ∧ e = ⟨o, c.next, .structural⟩ := by
  rw [within?, r.opener?_eq]
  constructor
  · intro h
    split at h
    · cases h
    · next d o hopener =>
      rw [Walk.found?_eq_some] at hopener
      have hd := r.structural_of_mem_before (List.mem_reverse.mp (Mark.mem_of_unclosed hopener))
      obtain ⟨closed, hclosed, rfl⟩ := Option.map_eq_some_iff.mp h
      rw [r.closer?_eq hd, Walk.found?_eq_some] at hclosed
      obtain ⟨c, hcloser, rfl⟩ := Walk.map_eq_hit.mp hclosed
      exact ⟨d, o, c, hopener, hcloser, by rw [hd, Position.next]⟩
  · rintro ⟨d, o, c, hopener, hcloser, rfl⟩
    have hd := r.structural_of_mem_before (List.mem_reverse.mp (Mark.mem_of_unclosed hopener))
    rw [hopener]
    simp only [Walk.found?, r.closer?_eq hd, hcloser, Walk.map, Option.map_some, hd]

/-- None is found where one of the two searches comes to the end of the window. -/
theorem within?_eq_none_iff {window : Nat} :
    within? doc window caret = none ↔
      (∃ depth, Mark.unclosed 0 (r.before window).reverse = .past depth) ∨
        ∃ d o depth, Mark.unclosed 0 (r.before window).reverse = .hit (d, o) ∧
          Mark.unopened d 0 (r.after window) = .past depth := by
  rw [Option.eq_none_iff_forall_ne_some]
  simp only [ne_eq, r.within?_eq_some_iff]
  cases hopener : Mark.unclosed 0 (r.before window).reverse with
  | past depth => simp
  | hit found =>
    obtain ⟨d, o⟩ := found
    cases hcloser : Mark.unopened d 0 (r.after window) with
    | past depth => simp [hcloser]
    | hit c => simp [hcloser]

end Reading

end Enclosure

end TabKey
