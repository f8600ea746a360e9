import Mathlib.Data.Set.Card
import TabKey.Proofs.Decision
import TabKey.Proofs.Extent

/-! How many rows a selection touches. Sorted intervals merge into runs while they share a row, and no sum on the way
to the count exceeds the count itself. -/
namespace TabKey

def word? (n : Nat) : Option Nat := if n < Nat.pow 2 64 then some n else none

/-- A sum that is kept as a word loses nothing on the way to one at least as large. -/
private theorem word?_bind {m n : Nat} {f : Nat → Option Nat} (hle : m ≤ n) (hf : f m = word? n) :
    (word? m).bind f = word? n := by
  rw [word?]
  split
  · exact hf
  · rw [word?, if_neg (by omega)]
    rfl

def countRun? (counted first last : Nat) : Option Nat := do
  let length ← word? (last - first + 1)
  word? (counted + length)

/-- The pass over sorted intervals in the run from `first` to `last`, with `counted` rows before it. An
interval that shares a row with the run widens it, and any other begins the next run. -/
def countRuns? (counted first last : Nat) : List (Nat × Nat) → Option Nat
  | [] => countRun? counted first last
  | (start, stop) :: rest =>
    if start ≤ last then countRuns? counted first (max last stop) rest
    else do countRuns? (← countRun? counted first last) start stop rest

def runRows? : List (Nat × Nat) → Option Nat
  | [] => some 0
  | (first, last) :: rest => countRuns? 0 first last rest

private theorem countRun?_eq (counted first last : Nat) :
    countRun? counted first last = word? (counted + (last - first + 1)) :=
  word?_bind (Nat.le_add_left _ _) rfl

private theorem rowsFrom_widen {next first last start stop : Nat} (rest : List (Nat × Nat))
    (hfirst : first ≤ start) (hshared : start ≤ last) :
    rowsFrom next ((first, last) :: (start, stop) :: rest) = rowsFrom next ((first, max last stop) :: rest) := by
  have hnext : max (max next (last + 1)) (stop + 1) = max next (max last stop + 1) := by omega
  simp only [rowsFrom, hnext]
  omega

private theorem rowsFrom_apart {first last start stop : Nat} (rest : List (Nat × Nat))
    (hfirst : first ≤ last) (happart : last < start) (hstart : start ≤ stop) :
    rowsFrom first ((first, last) :: (start, stop) :: rest) =
      (last - first + 1) + rowsFrom start ((start, stop) :: rest) := by
  have hnext : max (max first (last + 1)) (stop + 1) = max start (stop + 1) := by omega
  simp only [rowsFrom, hnext]
  omega

/-- From any run on, the pass adds the rows that are still to come. -/
private theorem countRuns?_eq {ivs : List (Nat × Nat)} {counted first last : Nat} (hlast : first ≤ last)
    (hfirst : ∀ iv ∈ ivs, first ≤ iv.1) (hvalid : ∀ iv ∈ ivs, iv.1 ≤ iv.2)
    (hsorted : ivs.Pairwise fun a b => a.1 ≤ b.1) :
    countRuns? counted first last ivs = word? (counted + rowsFrom first ((first, last) :: ivs)) := by
  induction ivs generalizing counted first last with
  | nil =>
    rw [countRuns?, countRun?_eq, rowsFrom, rowsFrom, Nat.max_self, Nat.add_zero, Nat.sub_add_comm hlast]
  | cons iv rest ih =>
    obtain ⟨start, stop⟩ := iv
    obtain ⟨hnext, hrest⟩ := List.pairwise_cons.mp hsorted
    obtain ⟨hstart, hfirst⟩ := List.forall_mem_cons.mp hfirst
    obtain ⟨hstop, hvalid⟩ := List.forall_mem_cons.mp hvalid
    rw [countRuns?]
    split
    · next hshared =>
      rw [rowsFrom_widen rest hstart hshared]
      exact ih (Nat.le_trans hlast (Nat.le_max_left _ _)) hfirst hvalid hrest
    · next happart =>
      rw [rowsFrom_apart rest hlast (Nat.lt_of_not_le happart) hstop, ← Nat.add_assoc, countRun?_eq]
      exact word?_bind (Nat.le_add_right _ _) (ih hstop hnext hvalid hrest)

theorem runRows?_eq {ivs : List (Nat × Nat)} (hvalid : ∀ iv ∈ ivs, iv.1 ≤ iv.2)
    (hsorted : ivs.Pairwise fun a b => a.1 ≤ b.1) : runRows? ivs = word? (rowsFrom 0 ivs) := by
  cases ivs with
  | nil => rfl
  | cons iv rest =>
    obtain ⟨first, last⟩ := iv
    obtain ⟨hfirst, hrest⟩ := List.pairwise_cons.mp hsorted
    obtain ⟨hlast, hvalid⟩ := List.forall_mem_cons.mp hvalid
    have hnext : max first (last + 1) = max 0 (last + 1) := by
      have : first ≤ last := hlast
      omega
    rw [runRows?, countRuns?_eq hlast hfirst hvalid hrest, Nat.zero_add, rowsFrom, rowsFrom, hnext,
      Nat.max_self, Nat.max_zero]

namespace Selection

/-- Rows below a bound are no more than the bound. -/
theorem rowCount_le_of_rows_lt {sel : Selection} {bound : Nat}
    (h : ∀ s ∈ sel.spans, s.anchor.row < bound ∧ s.head.row < bound) : sel.rowCount ≤ bound := by
  have hsubset : sel.rowSet ⊆ Finset.range bound := by
    intro row hrow
    obtain ⟨s, hs, htouches⟩ := mem_rowSet.mp hrow
    simp only [Span.touches, Bool.and_eq_true, decide_eq_true_eq] at htouches
    have hlast : s.lastRow ≤ max s.anchor.row s.head.row := s.row_last ▸ s.lastRow_le
    obtain ⟨hanchor, hhead⟩ := h s hs
    rw [Finset.mem_range]
    omega
  rw [rowCount_eq_card]
  exact (Finset.card_le_card hsubset).trans_eq (Finset.card_range bound)

/-- The count is the number of rows in one span or another. It depends on neither order nor repetition, and
the pass over the merged runs finds it wherever it is a machine word itself. -/
theorem rowCount_eq_ncard (sel : Selection) :
    (∀ s : Span, s.firstRow ≤ s.lastRow) ∧
    sel.rowCount = {row | ∃ s ∈ sel.spans, s.firstRow ≤ row ∧ row ≤ s.lastRow}.ncard ∧
    (∀ sel' : Selection, (∀ s, s ∈ sel'.spans ↔ s ∈ sel.spans) → sel'.rowCount = sel.rowCount) ∧
    ∀ ivs : List (Nat × Nat), ivs.Perm (sel.spans.map fun s => (s.firstRow, s.lastRow)) →
      (ivs.Pairwise fun a b => a.1 ≤ b.1) →
      runRows? ivs = word? sel.rowCount ∧
        ((∀ s ∈ sel.spans, s.anchor.row ≤ Nat.pow 2 64 - 2 ∧ s.head.row ≤ Nat.pow 2 64 - 2) →
          runRows? ivs = some sel.rowCount) := by
  refine ⟨Span.firstRow_le_lastRow, ?_, fun _ h => rowCount_of_mem_iff h, ?_⟩
  · have hrows : {row | ∃ s ∈ sel.spans, s.firstRow ≤ row ∧ row ≤ s.lastRow} = (sel.rowSet : Set Nat) := by
      ext row
      simp only [Set.mem_ofPred_eq, Finset.mem_coe, mem_rowSet, Span.touches, Bool.and_eq_true, decide_eq_true_eq]
    rw [hrows, Set.ncard_coe_finset, rowCount_eq_card]
  · intro ivs hperm hsorted
    have hvalid : ∀ iv ∈ ivs, iv.1 ≤ iv.2 := by
      intro iv hiv
      obtain ⟨s, -, rfl⟩ := List.mem_map.mp (hperm.mem_iff.mp hiv)
      exact s.firstRow_le_lastRow
    have hcount : runRows? ivs = word? sel.rowCount := by
      rw [runRows?_eq hvalid hsorted, rowsFrom_eq_card_rowSet hperm hsorted, rowCount_eq_card]
    refine ⟨hcount, fun hrows => ?_⟩
    have hword : 2 ≤ Nat.pow 2 64 := by decide
    have hle : sel.rowCount ≤ Nat.pow 2 64 - 1 := rowCount_le_of_rows_lt fun s hs => by
      obtain ⟨hanchor, hhead⟩ := hrows s hs
      omega
    rw [hcount, word?, if_pos (by omega)]

def patchwork : Selection where
  primary := ⟨⟨Nat.pow 2 64 - 2, 3⟩, ⟨5, 0⟩⟩
  others := [.caret ⟨7, 0⟩, ⟨⟨0, 2⟩, ⟨4, 0⟩⟩, .caret ⟨4, 1⟩, ⟨⟨0, 2⟩, ⟨4, 0⟩⟩]

theorem rowCount_eq_ncard_patchwork :
    let ivs := [(0, 3), (0, 3), (4, 4), (5, Nat.pow 2 64 - 2), (7, 7)]
    ivs.Perm (patchwork.spans.map fun s => (s.firstRow, s.lastRow)) ∧
    (ivs.Pairwise fun a b => a.1 ≤ b.1) ∧
    (∀ s ∈ patchwork.spans, s.anchor.row ≤ Nat.pow 2 64 - 2 ∧ s.head.row ≤ Nat.pow 2 64 - 2) ∧
    runRows? ivs = some patchwork.rowCount ∧ patchwork.rowCount = Nat.pow 2 64 - 1 := by
  intro ivs
  have hperm : ivs.Perm (patchwork.spans.map fun s => (s.firstRow, s.lastRow)) := by decide
  have hsorted : ivs.Pairwise fun a b => a.1 ≤ b.1 := by decide
  have hrows : ∀ s ∈ patchwork.spans, s.anchor.row ≤ Nat.pow 2 64 - 2 ∧ s.head.row ≤ Nat.pow 2 64 - 2 := by
    decide
  have hcount : runRows? ivs = some patchwork.rowCount :=
    ((rowCount_eq_ncard patchwork).2.2.2 ivs hperm hsorted).2 hrows
  have hsum : runRows? ivs = some (Nat.pow 2 64 - 1) := by decide
  exact ⟨hperm, hsorted, hrows, hcount, Option.some.inj (hcount.symm.trans hsum)⟩

/-- Each caret touches one row. -/
theorem rowCount_le_count {sel : Selection} (h : sel.selectsText = false) : sel.rowCount ≤ sel.count := by
  have hsubset : sel.rowSet ⊆ (sel.spans.map (·.head.row)).toFinset := by
    intro row hrow
    obtain ⟨s, hs, htouches⟩ := mem_rowSet.mp hrow
    rw [caret_of_not_selectsText h hs] at htouches
    simp only [Span.touches, Span.firstRow_caret, Span.lastRow_caret, Bool.and_eq_true,
      decide_eq_true_eq] at htouches
    have hhead : s.head.row = row := Nat.le_antisymm htouches.1 htouches.2
    exact List.mem_toFinset.mpr (List.mem_map.mpr ⟨s, hs, hhead⟩)
  calc sel.rowCount = sel.rowSet.card := rowCount_eq_card sel
    _ ≤ (sel.spans.map (·.head.row)).toFinset.card := Finset.card_le_card hsubset
    _ ≤ (sel.spans.map (·.head.row)).length := List.toFinset_card_le _
    _ = sel.count := List.length_map _

/-- Spans on two rows do not share one. -/
theorem rowCount_ne_one_of_carets {sel : Selection} (h : sel.selectsText = false) {a b : Span}
    (ha : a ∈ sel.spans) (hb : b ∈ sel.spans) (hrows : a.head.row ≠ b.head.row) : sel.rowCount ≠ 1 := by
  intro hone
  have hshared := caretsOn_of_rowCount_eq_one h hone
  exact hrows ((hshared a ha).2.trans (hshared b hb).2.symm)

end Selection

namespace Situation
variable {s : Situation} {settings : Settings}

private theorem rule_onLine?_ne {eager : Bool} {ruled : Rule × Action} (h : s.onLine? eager = some ruled) :
    ruled.1 ≠ .manyRows := by
  rw [onLine?] at h
  repeat' split at h
  all_goals cases h <;> rintro ⟨⟩

private theorem rule_onSharedLine?_ne {eager : Bool} {ruled : Rule × Action}
    (h : s.onSharedLine? eager = some ruled) : ruled.1 ≠ .manyRows := by
  rw [onSharedLine?] at h
  split at h
  · cases h
    rintro ⟨⟩
  · exact rule_onLine?_ne h

private theorem lt_of_rule_offLine (h : s.offLine.1 = .manyRows) : s.spanCount < s.rowCount := by
  rw [offLine] at h
  split at h
  · next hmany =>
    simp only [Bool.and_eq_true, decide_eq_true_eq] at hmany
    exact hmany.1.2
  · cases h

theorem ruling_of_rowCount_ne_one (htext : s.selectsText = false) (hrows : s.rowCount ≠ 1) :
    s.ruling settings = s.offLine := by
  rw [ruling, htext, if_neg Bool.false_ne_true, if_neg hrows]

theorem offLine_of_rowCount_le (h : s.rowCount ≤ s.spanCount) : s.offLine = (.fallback, .insertTab) := by
  rw [offLine, if_neg]
  simp only [Bool.and_eq_true, decide_eq_true_eq]
  omega

/-- The rule for many rows needs more rows than spans, and no text selected. -/
theorem lt_of_rule_manyRows (h : (s.ruling settings).1 = .manyRows) :
    s.selectsText = false ∧ s.spanCount < s.rowCount := by
  rw [ruling] at h
  split at h
  · cases h
  · next htext =>
    refine ⟨Bool.eq_false_iff.mpr htext, ?_⟩
    split at h
    · cases hline : s.onSharedLine? settings.eagerJumpOut with
      | none =>
        rw [hline] at h
        exact lt_of_rule_offLine h
      | some ruled =>
        rw [hline] at h
        exact absurd h (rule_onSharedLine?_ne hline)
    · exact lt_of_rule_offLine h

end Situation

/-- What is gathered from a document never has more rows than spans, text aside: carets on several rows
insert a tab, and the rule for many rows decides nothing. -/
theorem Document.ruling_of_carets (doc : Document) (sel : Selection) (settings : Settings) :
    let s := doc.situation sel settings
    (s.selectsText = false → s.rowCount ≤ s.spanCount) ∧
    ((∀ a ∈ sel.spans, a.anchor = a.head) → (∃ a ∈ sel.spans, ∃ b ∈ sel.spans, a.head.row ≠ b.head.row) →
      s.ruling settings = (.fallback, .insertTab)) ∧
    (s.ruling settings).1 ≠ .manyRows := by
  intro s
  have hcount : s.selectsText = false → s.rowCount ≤ s.spanCount := Selection.rowCount_le_count
  refine ⟨hcount, ?_, ?_⟩
  · rintro hcarets ⟨a, ha, b, hb, hrows⟩
    have htext : sel.selectsText = false := by
      rw [Selection.selectsText, List.any_eq_false]
      intro c hc
      simp [Span.isCaret, hcarets c hc]
    have hone : s.rowCount ≠ 1 := Selection.rowCount_ne_one_of_carets htext ha hb hrows
    exact (Situation.ruling_of_rowCount_ne_one htext hone).trans (Situation.offLine_of_rowCount_le (hcount htext))
  · intro hmany
    obtain ⟨htext, hlt⟩ := Situation.lt_of_rule_manyRows hmany
    exact Nat.not_lt_of_le (hcount htext) hlt

theorem Document.ruling_of_carets_twoRows :
    let doc : Document := ⟨["(a)".toList, "  ".toList]⟩
    let sel : Selection := ⟨.caret ⟨0, 1⟩, [.caret ⟨1, 2⟩, .caret ⟨0, 1⟩]⟩
    (∀ a ∈ sel.spans, a.anchor = a.head) ∧ (∃ a ∈ sel.spans, ∃ b ∈ sel.spans, a.head.row ≠ b.head.row) ∧
    ∀ settings, (doc.situation sel settings).ruling settings = (.fallback, .insertTab) := by
  intro doc sel
  have hcarets : ∀ a ∈ sel.spans, a.anchor = a.head := by decide
  have hrows : ∃ a ∈ sel.spans, ∃ b ∈ sel.spans, a.head.row ≠ b.head.row := by decide
  exact ⟨hcarets, hrows, fun settings => (ruling_of_carets doc sel settings).2.1 hcarets hrows⟩

end TabKey
