import Mathlib.Order.Bounds.Basic
import TabKey.Proofs.Around
import TabKey.Proofs.Balance
import TabKey.Proofs.Enclosure.QuoteFree

/-! The pair around a caret by counting. The opener is the last place from which one bracket more opens than closes up
to the caret, and the closer is the first place up to which one more of its kind closes than opens. -/
namespace TabKey

/-- No two ends of a text stand at one place. -/
theorem Mark.eq_of_place_eq {ms : List Mark} (sorted : ms.Pairwise fun a b => a.place < b.place) {a b : Mark}
    (ha : a ∈ ms) (hb : b ∈ ms) (h : a.place = b.place) : a = b := by
  have hnodup : (ms.map Mark.place).Nodup := List.pairwise_map.mpr (sorted.imp fun hlt => hlt.ne)
  exact List.inj_on_of_nodup_map hnodup ha hb h

namespace Document
open Enclosure
variable {doc : Document} {caret : Position} {window : Nat}

def marksBetween (doc : Document) (p q : Position) : List Mark :=
  doc.marks.filter fun m => p ≤ m.place ∧ m.place < q

/-- From a place before the caret, in the rows of the window, one bracket more opens than closes up to the caret. All
kinds are counted together. -/
structure OpenFrom (doc : Document) (window : Nat) (caret p : Position) : Prop where
  le_row : caret.row - window ≤ p.row
  lt_caret : p < caret
  one_open : (doc.marksBetween p caret).countP (·.opens) = (doc.marksBetween p caret).countP (!·.opens) + 1

/-- From the caret on and through a place in the rows of the window, one `d` more closes than opens. -/
structure ClosedBy (doc : Document) (window : Nat) (caret : Position) (d : Delimiter) (q : Position) : Prop where
  caret_le : caret ≤ q
  row_le : q.row ≤ min (caret.row + window) (doc.lineCount - 1)
  one_closed : ((doc.marksBetween caret q.next).filter (·.delimiter = d)).countP (!·.opens) =
    ((doc.marksBetween caret q.next).filter (·.delimiter = d)).countP (·.opens) + 1

namespace QuoteFree
variable (h : doc.QuoteFree)
include h

theorem marks_cut (caret : Position) (window : Nat) :
    doc.marks =
      (Mark.rowsFrom doc.marksOn 0 (caret.row - window) ++ (h.reading caret).before window) ++
        ((h.reading caret).after window ++ Mark.rowsFrom doc.marksOn (caret.row + 1 + window) doc.lineCount) :=
  (h.reading caret).marks_cut (fun _ hle => marksOn_eq_nil hle) window

theorem marksBetween_caret {p : Position} (hrow : caret.row - window ≤ p.row) :
    doc.marksBetween p caret = ((h.reading caret).before window).filter (p ≤ ·.place) := by
  have hfar : (Mark.rowsFrom doc.marksOn 0 (caret.row - window)).filter
      (fun m => p ≤ m.place ∧ m.place < caret) = [] := by
    apply List.filter_eq_nil_iff.mpr
    intro m hm
    have hlt := (Mark.row_of_mem_rowsFrom (h.reading caret).row_eq hm).2
    rw [decide_eq_true_iff, Position.le_def]
    omega
  have hright : ((h.reading caret).after window ++
      Mark.rowsFrom doc.marksOn (caret.row + 1 + window) doc.lineCount).filter
        (fun m => p ≤ m.place ∧ m.place < caret) = [] := by
    apply List.filter_eq_nil_iff.mpr
    intro m hm
    rw [decide_eq_true_iff]
    exact fun hplace => absurd hplace.2 (not_lt_of_ge ((h.reading caret).caret_le_of_mem hm))
  rw [marksBetween, h.marks_cut caret window, List.filter_append, List.filter_append, hfar, hright, List.nil_append,
    List.append_nil]
  apply List.filter_congr
  intro m hm
  simp only [(h.reading caret).lt_caret_of_mem_before hm, and_true]

theorem marksBetween_next {q : Position} (hrow : q.row ≤ caret.row + window) :
    doc.marksBetween caret q.next = ((h.reading caret).after window).filter (·.place ≤ q) := by
  have hleft : (Mark.rowsFrom doc.marksOn 0 (caret.row - window) ++ (h.reading caret).before window).filter
      (fun m => caret ≤ m.place ∧ m.place < q.next) = [] := by
    apply List.filter_eq_nil_iff.mpr
    intro m hm
    rw [decide_eq_true_iff]
    exact fun hplace => absurd ((h.reading caret).lt_caret_of_mem hm) (not_lt_of_ge hplace.1)
  have hfar : (Mark.rowsFrom doc.marksOn (caret.row + 1 + window) doc.lineCount).filter
      (fun m => caret ≤ m.place ∧ m.place < q.next) = [] := by
    apply List.filter_eq_nil_iff.mpr
    intro m hm
    have hle := (Mark.row_of_mem_rowsFrom (h.reading caret).row_eq hm).1
    rw [decide_eq_true_iff, Position.lt_next_iff, Position.le_def (q := q)]
    omega
  rw [marksBetween, h.marks_cut caret window, List.filter_append, hleft, List.nil_append, List.filter_append, hfar,
    List.append_nil]
  apply List.filter_congr
  intro m hm
  simp only [(h.reading caret).caret_le_of_mem_after hm, true_and, Position.lt_next_iff]

/-- The ends before the caret, nearest first, are in the reverse of the text's order. -/
theorem sorted_before (caret : Position) (window : Nat) :
    ((h.reading caret).before window).reverse.Pairwise fun a b =>
      OrderDual.toDual a.place < OrderDual.toDual b.place := by
  have hsorted := doc.sorted_marks
  rw [h.marks_cut caret window] at hsorted
  exact List.pairwise_reverse.mpr (List.pairwise_append.mp (List.pairwise_append.mp hsorted).1).2.1

theorem sorted_after (caret : Position) (window : Nat) :
    ((h.reading caret).after window).Pairwise fun a b => a.place < b.place := by
  have hsorted := doc.sorted_marks
  rw [h.marks_cut caret window] at hsorted
  exact (List.pairwise_append.mp (List.pairwise_append.mp hsorted).2.1).1

theorem openFrom_iff {p : Position} (hrow : caret.row - window ≤ p.row) :
    doc.OpenFrom window caret p ↔
      Mark.Exceeds OrderDual.toDual 1 ((h.reading caret).before window).reverse (OrderDual.toDual p) := by
  have hbetween := h.marksBetween_caret hrow
  have hcount : Mark.Exceeds OrderDual.toDual 1 ((h.reading caret).before window).reverse (OrderDual.toDual p) ↔
      (doc.marksBetween p caret).countP (·.opens) = (doc.marksBetween p caret).countP (!·.opens) + 1 := by
    rw [Mark.Exceeds, List.filter_reverse, List.countP_reverse, List.countP_reverse, hbetween]
    rfl
  rw [hcount]
  constructor
  · exact OpenFrom.one_open
  · intro hone
    refine ⟨hrow, ?_, hone⟩
    obtain ⟨m, hm, hle⟩ := (hcount.mpr hone).exists_le
    exact lt_of_le_of_lt hle ((h.reading caret).lt_caret_of_mem_before (List.mem_reverse.mp hm))

theorem closedBy_iff {d : Delimiter} {q : Position} (hrow : q.row ≤ min (caret.row + window) (doc.lineCount - 1)) :
    doc.ClosedBy window caret d q ↔
      Mark.Exceeds id 1 ((((h.reading caret).after window).filter (·.delimiter = d)).map Mark.flip) q := by
  have hbetween := h.marksBetween_next (hrow.trans (Nat.min_le_left _ _))
  have hcount : Mark.Exceeds id 1 ((((h.reading caret).after window).filter (·.delimiter = d)).map Mark.flip) q ↔
      ((doc.marksBetween caret q.next).filter (·.delimiter = d)).countP (!·.opens) =
        ((doc.marksBetween caret q.next).filter (·.delimiter = d)).countP (·.opens) + 1 := by
    have hflip : (fun m : Mark => !m.opens) ∘ Mark.flip = (·.opens) := funext fun m => Bool.not_not _
    rw [Mark.Exceeds, List.filter_map, List.countP_map, List.countP_map, hflip, hbetween, List.filter_comm]
    rfl
  rw [hcount]
  constructor
  · exact ClosedBy.one_closed
  · intro hone
    refine ⟨?_, hrow, hone⟩
    obtain ⟨m, hm, hle⟩ := (hcount.mpr hone).exists_le
    obtain ⟨m', hm', rfl⟩ := List.mem_map.mp hm
    exact le_trans ((h.reading caret).caret_le_of_mem_after (List.mem_of_mem_filter hm')) hle

/-- The search to the left hits at the last place from which one bracket more opens. -/
theorem isGreatest_of_unclosed {d : Delimiter} {o : Position}
    (hopener : Mark.unclosed 0 ((h.reading caret).before window).reverse = .hit (d, o)) :
    ⟨o, d, true⟩ ∈ doc.marks ∧ IsGreatest {p | doc.OpenFrom window caret p} o := by
  have hsorted := h.sorted_before caret window
  have hmem := List.mem_reverse.mp (Mark.mem_of_unclosed hopener)
  refine ⟨?_, ?_, ?_⟩
  · rw [h.marks_cut caret window]
    exact List.mem_append_left _ (List.mem_append_right _ hmem)
  · exact (h.openFrom_iff ((h.reading caret).le_row_of_mem_before hmem)).mpr
      (Mark.exceeds_of_unclosed hsorted hopener)
  · intro p hp
    exact Mark.le_of_exceeds hsorted hopener ((h.openFrom_iff hp.le_row).mp hp)

/-- From a place with one bracket more open the search to the left has something to hit. -/
theorem exists_unclosed_of_openFrom {p : Position} (hp : doc.OpenFrom window caret p) :
    ∃ d o, Mark.unclosed 0 ((h.reading caret).before window).reverse = .hit (d, o) := by
  obtain ⟨d, o, hopener, -⟩ :=
    Mark.exists_unclosed_of_exceeds (h.sorted_before caret window) ((h.openFrom_iff hp.le_row).mp hp)
  exact ⟨d, o, hopener⟩

theorem unclosed_eq_hit_iff {d : Delimiter} {o : Position} :
    Mark.unclosed 0 ((h.reading caret).before window).reverse = .hit (d, o) ↔
      ⟨o, d, true⟩ ∈ doc.marks ∧ IsGreatest {p | doc.OpenFrom window caret p} o := by
  refine ⟨h.isGreatest_of_unclosed, fun ⟨hmem, hgreatest⟩ => ?_⟩
  obtain ⟨d', o', hopener⟩ := h.exists_unclosed_of_openFrom hgreatest.1
  obtain ⟨hmem', hgreatest'⟩ := h.isGreatest_of_unclosed hopener
  -- There is one last place, and one bracket on it.
  cases Mark.eq_of_place_eq doc.sorted_marks hmem hmem' (hgreatest.unique hgreatest')
  exact hopener

/-- The search to the left fails where from no place one bracket more opens. -/
theorem unclosed_eq_past_iff :
    (∃ depth, Mark.unclosed 0 ((h.reading caret).before window).reverse = .past depth) ↔
      ∀ p, ¬doc.OpenFrom window caret p := by
  constructor
  · rintro ⟨depth, hpast⟩ p hp
    obtain ⟨d, o, hopener⟩ := h.exists_unclosed_of_openFrom hp
    cases hpast.symm.trans hopener
  · intro hnone
    cases hopener : Mark.unclosed 0 ((h.reading caret).before window).reverse with
    | past depth => exact ⟨depth, rfl⟩
    | hit found => exact absurd (h.isGreatest_of_unclosed hopener).2.1 (hnone _)

/-- The ends of one kind after the caret, read the other way. -/
theorem sorted_flipped (caret : Position) (window : Nat) (d : Delimiter) :
    ((((h.reading caret).after window).filter (·.delimiter = d)).map Mark.flip).Pairwise fun a b =>
      id a.place < id b.place :=
  List.pairwise_map.mpr ((h.sorted_after caret window).filter _)

/-- The search to the right hits at the first place up to which one bracket more closes. -/
theorem isLeast_of_unopened {d : Delimiter} {c : Position}
    (hcloser : Mark.unopened d 0 ((h.reading caret).after window) = .hit c) :
    IsLeast {q | doc.ClosedBy window caret d q} c := by
  have hsorted := h.sorted_flipped caret window d
  have hmem := Mark.mem_of_unopened hcloser
  have hmarks : (⟨c, d, false⟩ : Mark) ∈ doc.marks := by
    rw [h.marks_cut caret window]
    exact List.mem_append_right _ (List.mem_append_left _ hmem)
  have hlast : c.row < 0 + doc.lineCount := (Mark.row_of_mem_rowsFrom (h.reading caret).row_eq hmarks).2
  have hfar : c.row ≤ caret.row + window := (h.reading caret).row_le_of_mem_after hmem
  rw [Mark.unopened_eq_unclosed_flip] at hcloser
  obtain ⟨found, hhit, rfl⟩ := Walk.map_eq_hit.mp hcloser
  constructor
  · exact (h.closedBy_iff (by omega)).mpr (Mark.exceeds_of_unclosed hsorted hhit)
  · intro q hq
    exact Mark.le_of_exceeds hsorted hhit ((h.closedBy_iff hq.row_le).mp hq)

/-- Up to a place with one bracket more closed the search to the right has something to hit. -/
theorem exists_unopened_of_closedBy {d : Delimiter} {q : Position} (hq : doc.ClosedBy window caret d q) :
    ∃ c, Mark.unopened d 0 ((h.reading caret).after window) = .hit c := by
  obtain ⟨kind, c, hhit, -⟩ :=
    Mark.exists_unclosed_of_exceeds (h.sorted_flipped caret window d) ((h.closedBy_iff hq.row_le).mp hq)
  rw [Mark.unopened_eq_unclosed_flip, hhit]
  exact ⟨c, rfl⟩

theorem unopened_eq_hit_iff {d : Delimiter} {c : Position} :
    Mark.unopened d 0 ((h.reading caret).after window) = .hit c ↔ IsLeast {q | doc.ClosedBy window caret d q} c := by
  refine ⟨h.isLeast_of_unopened, fun hleast => ?_⟩
  obtain ⟨c', hcloser⟩ := h.exists_unopened_of_closedBy hleast.1
  rw [hcloser, hleast.unique (h.isLeast_of_unopened hcloser)]

/-- The search to the right fails where up to no place one bracket more closes. -/
theorem unopened_eq_past_iff {d : Delimiter} :
    (∃ depth, Mark.unopened d 0 ((h.reading caret).after window) = .past depth) ↔
      ∀ q, ¬doc.ClosedBy window caret d q := by
  constructor
  · rintro ⟨depth, hpast⟩ q hq
    obtain ⟨c, hcloser⟩ := h.exists_unopened_of_closedBy hq
    cases hpast.symm.trans hcloser
  · intro hnone
    cases hcloser : Mark.unopened d 0 ((h.reading caret).after window) with
    | past depth => exact ⟨depth, rfl⟩
    | hit c => exact absurd (h.isLeast_of_unopened hcloser).1 (hnone _)

end QuoteFree

/-- On a text without quotes, whatever its brackets, the pair around a caret is found by counting. Its opener is the
last place in the window from which one bracket more opens than closes up to the caret, all kinds counted together, and
its closer the first place in the window up to which one bracket of the opener's kind more closes than opens. There is
none exactly where one of the two is missing. -/
theorem find?_by_counting (h : doc.QuoteFree) (window : Nat) (caret : Position) :
    (∀ e, Enclosure.find? doc window caret = some e ↔
      ∃ d o c, ⟨o, d, true⟩ ∈ doc.marks ∧ IsGreatest {p | doc.OpenFrom (min window 50) caret p} o ∧
        IsLeast {q | doc.ClosedBy (min window 50) caret d q} c ∧ e = ⟨o, ⟨c.row, c.col + 1⟩, .structural⟩) ∧
      (Enclosure.find? doc window caret = none ↔
        (∀ p, ¬doc.OpenFrom (min window 50) caret p) ∨
          ∃ d o, ⟨o, d, true⟩ ∈ doc.marks ∧ IsGreatest {p | doc.OpenFrom (min window 50) caret p} o ∧
            ∀ q, ¬doc.ClosedBy (min window 50) caret d q) := by
  have hwithin : Enclosure.find? doc window caret = within? doc (min window 50) caret := rfl
  rw [hwithin]
  constructor
  · intro e
    rw [(h.reading caret).within?_eq_some_iff]
    simp only [h.unclosed_eq_hit_iff, h.unopened_eq_hit_iff, and_assoc]
    rfl
  · rw [(h.reading caret).within?_eq_none_iff, h.unclosed_eq_past_iff]
    simp only [exists_and_left, h.unclosed_eq_hit_iff, h.unopened_eq_past_iff, and_assoc]

def crossed : Document := ⟨[['x', ')', '[', '(', '\\', '('], ['}', 'a', '{'], ['>', ']', ')']]⟩

theorem find?_crossed :
    crossed.QuoteFree ∧ Enclosure.find? crossed 7 ⟨1, 1⟩ = some ⟨⟨0, 2⟩, ⟨2, 2⟩, .structural⟩ ∧
      IsGreatest {p | crossed.OpenFrom 7 ⟨1, 1⟩ p} ⟨0, 2⟩ ∧
      IsLeast {q | crossed.ClosedBy 7 ⟨1, 1⟩ .bracket q} ⟨2, 1⟩ := by
  have hfree : crossed.QuoteFree := by
    simp [QuoteFree, crossed, Delimiter.quotes, Delimiter.opener]
  have hfound : Enclosure.find? crossed 7 ⟨1, 1⟩ = some ⟨⟨0, 2⟩, ⟨2, 2⟩, .structural⟩ := by decide
  obtain ⟨d, o, ⟨row, col⟩, hmem, hgreatest, hleast, hends⟩ := ((find?_by_counting hfree 7 ⟨1, 1⟩).1 _).mp hfound
  cases hends
  cases Mark.eq_of_place_eq crossed.sorted_marks hmem (show ⟨⟨0, 2⟩, .bracket, true⟩ ∈ crossed.marks by decide) rfl
  exact ⟨hfree, hfound, hgreatest, hleast⟩

end Document

end TabKey
