import TabKey.Proofs.Decision
import TabKey.Proofs.Extent
import TabKey.Proofs.PairAhead

namespace TabKey

namespace Selection

theorem rowCount_caret (p : Position) : (caret p).rowCount = 1 := (caretsOn_caret p).rowCount_eq_one

theorem selectsText_caret (p : Position) : (caret p).selectsText = false := (caretsOn_caret p).selectsText_eq_false

end Selection

namespace Document
variable {doc : Document} {p : Position} {settings : Settings}

/-- All that a decision sees of a single caret. -/
theorem situation_caret (doc : Document) (p : Position) (settings : Settings) :
    doc.situation (.caret p) settings =
      { rowCount := 1
        spanCount := 1
        selectsText := false
        atLineEnd := p.col == (doc.line p.row).length
        onBlankLine := Text.isBlank (doc.line p.row)
        enclosure := Enclosure.find? doc settings.searchLines p
        line := some (doc.caretLine settings p) } := by
  have hend : doc.atLineEnd (.caret p) = (p.col == (doc.line p.row).length) := by
    simp [atLineEnd, Selection.caret, Selection.spans, Span.isCaret, Span.caret]
  have henclosure : doc.enclosure? settings.searchLines (.caret p) =
      Enclosure.find? doc settings.searchLines p := if_pos (by simp [Span.isCaret, Span.caret])
  rw [situation, Selection.rowCount_caret, Selection.selectsText_caret, hend]
  simp only [Selection.caret, henclosure, if_true]
  rfl

end Document

namespace Outcome
variable {doc : Document} {p target : Position} {settings : Settings}

private theorem warrants_of_performed {action : Action}
    (h : ofTrigger settings (some ⟨doc, .caret p⟩) = .performed action) :
    (doc.situation (.caret p) settings).Warrants action := by
  have hwarrants := Situation.warrants_decide (doc.situation (.caret p) settings) settings
  rwa [(ofTrigger_eq_performed.mp h).2] at hwarrants

/-- A caret that leaves a pair lands right after its closer. -/
theorem closed_of_jumpOut (h : ofTrigger settings (some ⟨doc, .caret p⟩) = .performed (.jumpOut target)) :
    ∃ e, Enclosure.find? doc settings.searchLines p = some e ∧ e.closed = target := by
  have hexit := warrants_of_performed h
  rw [Document.situation_caret] at hexit
  exact Option.map_eq_some_iff.mp hexit

/-- A caret that enters a pair lands right after the opener of the pair ahead. -/
theorem inner_of_jumpInto (h : ofTrigger settings (some ⟨doc, .caret p⟩) = .performed (.jumpInto target)) :
    ∃ ahead, PairAhead.find? (doc.line p.row) p.col = some ahead ∧ target = ⟨p.row, ahead.inner⟩ := by
  have hentry := warrants_of_performed h
  rw [Document.situation_caret] at hentry
  obtain ⟨ahead, hahead, htarget⟩ := Option.bind_eq_some_iff.mp hentry
  exact ⟨ahead, hahead, (Option.some.inj htarget).symm⟩

end Outcome

theorem Buffer.outcome_of_caret {b : Buffer} {p : Position} (h : b.selection = .caret p) (settings : Settings) :
    (b.trigger settings).1 = Outcome.ofTrigger settings (some ⟨.ofText b.text, .caret p⟩) := by
  rw [← h]
  rfl

end TabKey
