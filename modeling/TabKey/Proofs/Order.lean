import TabKey.Proofs.Decision
import TabKey.Proofs.Indentation
import TabKey.Proofs.Insertion

/-! A trigger does not depend on the order of the spans. Where a rule looks at the primary caret, it is the only one or
all carets coincide. -/
namespace TabKey

namespace Selection
variable {sel sel' : Selection}

theorem rowCount_of_perm (h : sel.spans.Perm sel'.spans) : sel.rowCount = sel'.rowCount :=
  rowCount_of_mem_iff fun _ => h.mem_iff

theorem count_of_perm (h : sel.spans.Perm sel'.spans) : sel.count = sel'.count := h.length_eq

theorem selectsText_of_perm (h : sel.spans.Perm sel'.spans) : sel.selectsText = sel'.selectsText :=
  h.any_eq

theorem coverage_of_perm (h : sel.spans.Perm sel'.spans) : sel.coverage = sel'.coverage :=
  funext fun _ => h.countP_eq _

theorem perm_map (h : sel.spans.Perm sel'.spans) (f : Span → Span) :
    (sel.map f).spans.Perm (sel'.map f).spans := h.map f

end Selection

namespace Document
variable {sel sel' : Selection}

theorem atLineEnd_of_perm (doc : Document) (h : sel.spans.Perm sel'.spans) :
    doc.atLineEnd sel = doc.atLineEnd sel' := h.all_eq

/-- Carets at the end of one line are all the same caret. -/
private theorem eq_of_atLineEnd {doc : Document} (htext : sel.selectsText = false)
    (hrows : sel.rowCount = 1) (hend : doc.atLineEnd sel = true) {s t : Span} (hs : s ∈ sel.spans)
    (ht : t ∈ sel.spans) : s = t := by
  have hcarets := Selection.caretsOn_of_rowCount_eq_one htext hrows
  have hrow : s.head.row = t.head.row := (hcarets s hs).2.trans (hcarets t ht).2.symm
  have hcol : ∀ u ∈ sel.spans, u.head.col = (doc.line u.head.row).length := by
    intro u hu
    have h := List.all_eq_true.mp hend u hu
    rw [Bool.and_eq_true, beq_iff_eq] at h
    exact h.2
  have hhead : s.head = t.head := by
    have hsame : s.head.col = t.head.col := by rw [hcol s hs, hcol t ht, hrow]
    cases hhs : s.head
    cases hht : t.head
    rw [hhs, hht] at hrow hsame
    cases hrow
    cases hsame
    rfl
  rw [(hcarets s hs).1, (hcarets t ht).1, hhead]

/-- Where the primary caret matters, a selection in another order has the same one. -/
private theorem primary_eq_of_perm {doc : Document} (h : sel.spans.Perm sel'.spans)
    (htext : sel.selectsText = false) (hrows : sel.rowCount = 1)
    (hline : sel.count ≤ 1 ∨ doc.atLineEnd sel = true) : sel.primary = sel'.primary := by
  have hmem : sel'.primary ∈ sel.spans := h.mem_iff.mpr sel'.primary_mem_spans
  rcases hline with hcount | hend
  · have hothers : sel.others = [] := by
      rw [Selection.count, Selection.spans, List.length_cons] at hcount
      exact List.length_eq_zero_iff.mp (by omega)
    rw [Selection.spans, hothers, List.mem_singleton] at hmem
    exact hmem.symm
  · exact eq_of_atLineEnd htext hrows hend sel.primary_mem_spans hmem

theorem decide_situation_of_perm (doc : Document) (settings : Settings)
    (h : sel.spans.Perm sel'.spans) :
    (doc.situation sel settings).decide settings = (doc.situation sel' settings).decide settings := by
  have hrows := Selection.rowCount_of_perm h
  have hspans := Selection.count_of_perm h
  have htext := Selection.selectsText_of_perm h
  have hend := doc.atLineEnd_of_perm h
  apply Situation.decide_congr settings hrows hspans htext hend
  intro hselects hone hline
  have hprimary : sel.primary = sel'.primary := primary_eq_of_perm h hselects hone hline
  simp only [situation, hrows, hspans, htext, hend, hprimary]

end Document

namespace Buffer
variable {b b' : Buffer}

structure Reordered (b b' : Buffer) : Prop where
  text : b.text = b'.text
  indent : b.indent = b'.indent
  spans : b.selection.spans.Perm b'.selection.spans

namespace Reordered

theorem depth_eq (h : Reordered b b') : b.depth = b'.depth := by
  funext row
  rw [depth, depth, h.text, Selection.coverage_of_perm h.spans]

theorem indentLines (h : Reordered b b') : Reordered b.indentLines b'.indentLines where
  text := by
    rw [← Text.unrows_rows b.indentLines.text, ← Text.unrows_rows b'.indentLines.text,
      rows_indentLines, rows_indentLines, h.text, h.indent, h.depth_eq]
  indent := by rw [indent_indentLines, indent_indentLines, h.indent]
  spans := by
    rw [selection_indentLines, selection_indentLines, h.indent, h.depth_eq]
    exact Selection.perm_map h.spans _

theorem outdentRow (h : Reordered b b') (row : Nat) : Reordered (b.outdentRow row) (b'.outdentRow row) := by
  rw [Buffer.outdentRow, Buffer.outdentRow, h.text, h.indent]
  split
  · exact ⟨rfl, rfl, Selection.perm_map h.spans _⟩
  · exact h

theorem outdentLines (h : Reordered b b') : Reordered b.outdentLines b'.outdentLines := by
  have htouched : (fun row => b.selection.spans.any (·.touches row)) =
      fun row => b'.selection.spans.any (·.touches row) := funext fun _ => h.spans.any_eq
  rw [Buffer.outdentLines, Buffer.outdentLines, htouched, h.text]
  generalize (List.range _).filter _ = touched
  clear htouched
  induction touched generalizing b b' with
  | nil => exact h
  | cons row rest ih => exact ih (h.outdentRow row)

theorem insertTab (h : Reordered b b') : Reordered b.insertTab b'.insertTab := by
  have hcuts := cuts_of_perm h.text h.spans
  have htext : b.insertTab.text = b'.insertTab.text := by
    rw [text_insertTab, text_insertTab, hcuts, h.text, h.indent]
  refine ⟨htext, h.indent, ?_⟩
  have hends : b.ends = b'.ends := by rw [ends, ends, hcuts, h.indent]
  refine (spans_insertTab b).trans (List.Perm.trans ?_ (spans_insertTab b').symm)
  rw [hends, htext]

theorem moveCursorRight (h : Reordered b b') : Reordered b.moveCursorRight b'.moveCursorRight := by
  refine ⟨h.text, h.indent, ?_⟩
  rw [Buffer.moveCursorRight, Buffer.moveCursorRight, h.text]
  exact Selection.perm_map h.spans _

/-- Every command keeps the order of the spans out of what it does. -/
theorem run (h : Reordered b b') (c : Command) : Reordered (b.run c) (b'.run c) := by
  cases c with
  | indentLines => exact h.indentLines
  | outdentLines => exact h.outdentLines
  | insertTab => exact h.insertTab
  | defaultTab => exact h.insertTab
  | moveCursorRight => exact h.moveCursorRight
  | setCursor target reveal =>
    refine ⟨h.text, h.indent, ?_⟩
    rw [Buffer.run, Buffer.run, setCursor, setCursor, h.text]
  | showWarning message => exact ⟨h.text, h.indent, h.spans⟩

theorem runAll (h : Reordered b b') (commands : List Command) :
    Reordered (b.runAll commands) (b'.runAll commands) := by
  induction commands generalizing b b' with
  | nil => exact h
  | cons c rest ih => exact ih (h.run c)

theorem outcome_eq (h : Reordered b b') (settings : Settings) :
    Outcome.ofTrigger settings (some b.view) = Outcome.ofTrigger settings (some b'.view) := by
  have hdecide := (Document.ofText b.text).decide_situation_of_perm settings h.spans
  simp only [Outcome.ofTrigger, view, ← h.text, hdecide]

end Reordered

/-- Two selections with the same spans in different orders, so perhaps with different primary spans, get
the same outcome and the same text from a trigger, and spans that differ in their order alone. -/
theorem trigger_of_perm (settings : Settings) {sel : Selection}
    (h : b.selection.spans.Perm sel.spans) :
    (b.trigger settings).1 = ({ b with selection := sel }.trigger settings).1 ∧
      (b.trigger settings).2.text = ({ b with selection := sel }.trigger settings).2.text ∧
      (b.trigger settings).2.selection.spans.Perm
        ({ b with selection := sel }.trigger settings).2.selection.spans := by
  have hsame : Reordered b { b with selection := sel } := ⟨rfl, rfl, h⟩
  have houtcome := hsame.outcome_eq settings
  have hrun := hsame.runAll (Outcome.ofTrigger settings (some b.view)).commands
  refine ⟨houtcome, ?_, ?_⟩
  · rw [trigger, trigger, ← houtcome]
    exact hrun.text
  · rw [trigger, trigger, ← houtcome]
    exact hrun.spans

def twoWords : Buffer where
  text := ['o', 'n', 'e', ' ', 't', 'w', 'o']
  selection := ⟨.caret ⟨0, 2⟩, [.caret ⟨0, 7⟩]⟩
  indent := {}

/-- With the other caret primary, `twoWords` still indents once. -/
theorem trigger_twoWords_swapped :
    let swapped : Selection := ⟨.caret ⟨0, 7⟩, [.caret ⟨0, 2⟩]⟩
    twoWords.selection.spans.Perm swapped.spans ∧
      ({ twoWords with selection := swapped }.trigger {}).1 = .performed (.indentThenOutdent 1) ∧
      (twoWords.trigger {}).2.text = ({ twoWords with selection := swapped }.trigger {}).2.text ∧
      (twoWords.trigger {}).2.selection.spans.Perm
        ({ twoWords with selection := swapped }.trigger {}).2.selection.spans := by
  intro swapped
  have hswap : twoWords.selection.spans.Perm swapped.spans := List.Perm.swap _ _ []
  have hrows : twoWords.selection.rowCount = 1 := by
    rw [Selection.rowCount_eq_card]
    decide
  have houtcome : (twoWords.trigger {}).1 = .performed (.indentThenOutdent 1) := by
    simp only [trigger, Outcome.ofTrigger, Document.situation, view, Situation.decide, Situation.ruling,
      Situation.onSharedLine?, hrows]
    decide
  obtain ⟨hsame, hrest⟩ := trigger_of_perm {} hswap
  exact ⟨hswap, hsame.symm.trans houtcome, hrest⟩

end Buffer

end TabKey
