import Mathlib.Data.Finset.Union
import Mathlib.Data.List.Perm.Basic
import Mathlib.Data.List.Sort
import Mathlib.Order.Interval.Finset.Nat
import TabKey.Selection.Extent

namespace TabKey

private def covered (ivs : List (Nat × Nat)) : Finset Nat :=
  ivs.toFinset.biUnion fun iv => Finset.Icc iv.1 iv.2

private theorem mem_covered {ivs : List (Nat × Nat)} {row : Nat} :
    row ∈ covered ivs ↔ ∃ iv ∈ ivs, iv.1 ≤ row ∧ row ≤ iv.2 := by
  simp only [covered, Finset.mem_biUnion, List.mem_toFinset, Finset.mem_Icc]

private theorem covered_cons (first last : Nat) (rest : List (Nat × Nat)) :
    covered ((first, last) :: rest) = Finset.Icc first last ∪ covered rest := by
  simp only [covered, List.toFinset_cons, Finset.biUnion_insert]

/-- Over intervals sorted by first row, the pass counts the covered rows from `next` on. -/
private theorem rowsFrom_eq_card {ivs : List (Nat × Nat)} (next : Nat)
    (h : ivs.Pairwise fun a b => a.1 ≤ b.1) :
    rowsFrom next ivs = ((covered ivs).filter (next ≤ ·)).card := by
  induction ivs generalizing next with
  | nil => rfl
  | cons iv rest ih =>
    obtain ⟨first, last⟩ := iv
    obtain ⟨hfirst, hrest⟩ := List.pairwise_cons.mp h
    have hsplit : (covered ((first, last) :: rest)).filter (next ≤ ·) =
        Finset.Icc (max first next) last ∪
          (covered rest).filter (max next (last + 1) ≤ ·) := by
      ext row
      simp only [covered_cons, Finset.mem_filter, Finset.mem_union, Finset.mem_Icc]
      constructor
      · rintro ⟨hrow | hrow, hnext⟩
        · exact .inl (by omega)
        · obtain ⟨iv, hiv, hle, -⟩ := mem_covered.mp hrow
          have hstart : first ≤ iv.1 := hfirst iv hiv
          by_cases hlast : row ≤ last
          · exact .inl (by omega)
          · exact .inr ⟨hrow, by omega⟩
      · rintro (hrow | ⟨hrow, hnext⟩)
        · exact ⟨.inl (by omega), by omega⟩
        · exact ⟨.inr hrow, by omega⟩
    have hdisjoint : Disjoint (Finset.Icc (max first next) last)
        ((covered rest).filter (max next (last + 1) ≤ ·)) := by
      rw [Finset.disjoint_left]
      intro row hrow hmem
      have hle := (Finset.mem_filter.mp hmem).2
      have hlast := (Finset.mem_Icc.mp hrow).2
      omega
    rw [rowsFrom, ih _ hrest, hsplit, Finset.card_union_of_disjoint hdisjoint, Nat.card_Icc]

namespace Span

theorem last_eq (s : Span) : s.last = s.anchor ∨ s.last = s.head := by
  by_cases h : s.anchor ≤ s.head
  · exact .inr (if_pos h)
  · exact .inl (if_neg h)

theorem row_first (s : Span) : s.first.row = min s.anchor.row s.head.row := by
  by_cases h : s.anchor ≤ s.head
  · rw [show s.first = s.anchor from if_pos h]
    rw [Position.le_def] at h
    omega
  · rw [show s.first = s.head from if_neg h]
    rw [Position.le_def] at h
    omega

theorem row_last (s : Span) : s.last.row = max s.anchor.row s.head.row := by
  by_cases h : s.anchor ≤ s.head
  · rw [show s.last = s.head from if_pos h]
    rw [Position.le_def] at h
    omega
  · rw [show s.last = s.anchor from if_neg h]
    rw [Position.le_def] at h
    omega

theorem lastRow_le (s : Span) : s.lastRow ≤ s.last.row := by
  rw [lastRow]
  split <;> omega

theorem firstRow_le_lastRow (s : Span) : s.firstRow ≤ s.lastRow := by
  have hrows : s.first.row ≤ s.last.row := by
    rw [row_first, row_last]
    exact min_le_max
  rw [firstRow, lastRow]
  split <;> omega

theorem caret_of_isCaret {s : Span} (h : s.isCaret) : s = caret s.head := by
  obtain ⟨anchor, head⟩ := s
  simp only [isCaret, decide_eq_true_eq] at h
  rw [h]
  rfl

@[simp] theorem head_caret (p : Position) : (caret p).head = p := rfl

@[simp] theorem first_caret (p : Position) : (caret p).first = p := ite_self p

@[simp] theorem last_caret (p : Position) : (caret p).last = p := ite_self p

@[simp] theorem firstRow_caret (p : Position) : (caret p).firstRow = p.row :=
  congrArg Position.row (first_caret p)

@[simp] theorem lastRow_caret (p : Position) : (caret p).lastRow = p.row := by
  rw [lastRow, first_caret, last_caret, if_neg fun h => h.1 rfl]

@[simp] theorem map_caret (f : Position → Position) (p : Position) :
    (caret p).map f = caret (f p) := rfl

end Span

namespace Selection

def rowSet (sel : Selection) : Finset Nat :=
  sel.spans.toFinset.biUnion fun s => Finset.Icc s.firstRow s.lastRow

theorem mem_rowSet {sel : Selection} {row : Nat} : row ∈ sel.rowSet ↔ ∃ s ∈ sel.spans, s.touches row := by
  simp only [rowSet, Finset.mem_biUnion, List.mem_toFinset, Finset.mem_Icc, Span.touches,
    Bool.and_eq_true, decide_eq_true_eq]

/-- However spans that begin on one row are ordered, the pass counts distinct rows. -/
theorem rowsFrom_eq_card_rowSet {sel : Selection} {ivs : List (Nat × Nat)}
    (hperm : ivs.Perm (sel.spans.map fun s => (s.firstRow, s.lastRow))) (hsorted : ivs.Pairwise fun a b => a.1 ≤ b.1) :
    rowsFrom 0 ivs = sel.rowSet.card := by
  rw [rowsFrom_eq_card 0 hsorted]
  congr 1
  ext row
  simp only [Finset.mem_filter, Nat.zero_le, and_true, mem_covered, hperm.mem_iff, List.mem_map,
    mem_rowSet]
  constructor
  · rintro ⟨_, ⟨s, hs, rfl⟩, hrow⟩
    exact ⟨s, hs, by simpa [Span.touches] using hrow⟩
  · rintro ⟨s, hs, hrow⟩
    exact ⟨_, ⟨s, hs, rfl⟩, by simpa [Span.touches] using hrow⟩

theorem rowCount_eq_card (sel : Selection) : sel.rowCount = sel.rowSet.card := by
  refine rowsFrom_eq_card_rowSet (List.mergeSort_perm _ _) ?_
  exact List.pairwise_mergeSort' (fun a b : Nat × Nat => a.1 ≤ b.1) _

def coverage (sel : Selection) (row : Nat) : Nat := sel.spans.countP (·.touches row)

/-- The count depends on neither the order of the spans nor their repetition. -/
theorem rowCount_of_mem_iff {sel sel' : Selection} (h : ∀ s, s ∈ sel.spans ↔ s ∈ sel'.spans) :
    sel.rowCount = sel'.rowCount := by
  rw [rowCount_eq_card, rowCount_eq_card]
  congr 1
  ext row
  simp only [mem_rowSet, h]

theorem caret_of_not_selectsText {sel : Selection} (h : sel.selectsText = false) {s : Span}
    (hs : s ∈ sel.spans) : s = Span.caret s.head := by
  rw [selectsText, List.any_eq_false] at h
  exact Span.caret_of_isCaret (by simpa using h s hs)

def CaretsOn (sel : Selection) (row : Nat) : Prop := ∀ s ∈ sel.spans, s = .caret s.head ∧ s.head.row = row

instance (sel : Selection) (row : Nat) : Decidable (sel.CaretsOn row) :=
  inferInstanceAs (Decidable (∀ s ∈ sel.spans, _))

/-- Carets that touch one row in all stand on it together. -/
theorem caretsOn_of_rowCount_eq_one {sel : Selection} (htext : sel.selectsText = false)
    (hcount : sel.rowCount = 1) : sel.CaretsOn sel.primary.head.row := by
  rw [rowCount_eq_card, Finset.card_eq_one] at hcount
  obtain ⟨row, hrow⟩ := hcount
  have hmem : ∀ s ∈ sel.spans, s.head.row = row := by
    intro s hs
    have hcaret := caret_of_not_selectsText htext hs
    have hin : s.head.row ∈ sel.rowSet := mem_rowSet.mpr ⟨s, hs, by rw [hcaret]; simp [Span.touches]⟩
    rwa [hrow, Finset.mem_singleton] at hin
  intro s hs
  exact ⟨caret_of_not_selectsText htext hs, by rw [hmem s hs, hmem _ sel.primary_mem_spans]⟩

namespace CaretsOn
variable {sel : Selection} {row : Nat}

theorem touches_iff (h : sel.CaretsOn row) {s : Span} (hs : s ∈ sel.spans) {i : Nat} :
    s.touches i ↔ i = row := by
  obtain ⟨hcaret, hhead⟩ := h s hs
  rw [hcaret]
  simp only [Span.touches, Span.firstRow_caret, Span.lastRow_caret, Bool.and_eq_true, decide_eq_true_eq]
  omega

theorem map {f : Position → Position} (h : sel.CaretsOn row) (hf : ∀ p, (f p).row = p.row) :
    (sel.map (·.map f)).CaretsOn row := by
  intro s hs
  obtain ⟨t, ht, rfl⟩ := mem_spans_map.mp hs
  obtain ⟨hcaret, hrow⟩ := h t ht
  rw [hcaret, Span.map_caret]
  exact ⟨rfl, (hf _).trans hrow⟩

theorem selectsText_eq_false (h : sel.CaretsOn row) : sel.selectsText = false := by
  rw [selectsText, List.any_eq_false]
  intro s hs
  rw [(h s hs).1]
  simp [Span.isCaret, Span.caret]

theorem rowCount_eq_one (h : sel.CaretsOn row) : sel.rowCount = 1 := by
  rw [rowCount_eq_card, Finset.card_eq_one]
  refine ⟨row, ?_⟩
  ext i
  rw [mem_rowSet, Finset.mem_singleton]
  constructor
  · rintro ⟨s, hs, htouches⟩
    exact (h.touches_iff hs).mp htouches
  · intro hi
    exact ⟨_, sel.primary_mem_spans, (h.touches_iff sel.primary_mem_spans).mpr hi⟩

end CaretsOn

theorem caretsOn_caret (p : Position) : (caret p).CaretsOn p.row := by
  intro s hs
  obtain rfl := List.mem_singleton.mp hs
  exact ⟨rfl, rfl⟩

end Selection

end TabKey
