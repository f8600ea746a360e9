import TabKey.Proofs.Enclosure.Local
import TabKey.Trigger

namespace TabKey

namespace Document
open Text (Alike)
variable {doc doc' : Document} {sel : Selection}

theorem atLineEnd_congr (h : ∀ s ∈ sel.spans, Alike (doc.line s.head.row) (doc'.line s.head.row)) :
    doc.atLineEnd sel = doc'.atLineEnd sel := by
  rw [Bool.eq_iff_iff, atLineEnd, atLineEnd, List.all_eq_true, List.all_eq_true]
  refine forall₂_congr fun s hs => ?_
  rw [(h s hs).length_eq]

theorem caretLine_congr (settings : Settings) {caret : Position}
    (h : Alike (doc.line caret.row) (doc'.line caret.row)) :
    doc.caretLine settings caret = doc'.caretLine settings caret := by
  simp only [caretLine, atContentStart, h.isBlank_take, PairAhead.find?_of_alike h,
    CloserAhead.find?_of_alike h]

/-- Documents that look alike where the caret is and around it cannot be told apart. -/
theorem situation_congr (settings : Settings)
    (hheads : ∀ s ∈ sel.spans, Alike (doc.line s.head.row) (doc'.line s.head.row))
    (hwindow : ∀ row, sel.primary.head.row - min settings.searchLines Enclosure.maxWindow ≤ row →
      row ≤ sel.primary.head.row + min settings.searchLines Enclosure.maxWindow →
        Alike (doc.line row) (doc'.line row)) :
    doc.situation sel settings = doc'.situation sel settings := by
  have hcaret := hheads sel.primary sel.primary_mem_spans
  have henclosure : doc.enclosure? settings.searchLines sel.primary =
      doc'.enclosure? settings.searchLines sel.primary := by
    rw [enclosure?, enclosure?, Enclosure.find?_congr hwindow]
  simp only [situation, atLineEnd_congr hheads, henclosure, hcaret.isBlank_eq,
    caretLine_congr settings hcaret]

/-- No text farther from the caret than the window reaches can influence a trigger, nor can the number of
lines: documents of any lengths that agree near the caret give the same situation and the same outcome. -/
theorem situation_of_agree_near (doc doc' : Document) (s : Span) (settings : Settings)
    (h : ∀ row, s.head.row - min settings.searchLines 50 ≤ row →
      row ≤ s.head.row + min settings.searchLines 50 → doc.line row = doc'.line row) :
    doc.situation ⟨s, []⟩ settings = doc'.situation ⟨s, []⟩ settings ∧
      (doc.situation ⟨s, []⟩ settings).decide settings = (doc'.situation ⟨s, []⟩ settings).decide settings ∧
      Outcome.ofTrigger settings (some ⟨doc, ⟨s, []⟩⟩) =
        Outcome.ofTrigger settings (some ⟨doc', ⟨s, []⟩⟩) := by
  have hsame : doc.situation ⟨s, []⟩ settings = doc'.situation ⟨s, []⟩ settings := by
    apply situation_congr settings
    · intro t ht
      obtain rfl := List.mem_singleton.mp ht
      exact .of_eq (h t.head.row (Nat.sub_le _ _) (Nat.le_add_right _ _))
    · exact fun row hle hrow => .of_eq (h row hle hrow)
  exact ⟨hsame, by rw [hsame], by simp only [Outcome.ofTrigger, hsame]⟩

/-- A caret between two brackets with a window of one row, in documents that differ above and below it and
in their length. -/
theorem situation_of_agree_near_threeRows :
    let doc : Document := ⟨[['}'], ['('], ['x'], [')']]⟩
    let doc' : Document := ⟨[['['], ['('], ['x'], [')'], ['<'], ['a']]⟩
    let settings : Settings := { searchLines := 1 }
    let sel : Selection := .caret ⟨2, 1⟩
    (∀ row, 2 - min 1 50 ≤ row → row ≤ 2 + min 1 50 → doc.line row = doc'.line row) ∧
      doc'.enclosure? 1 sel.primary = some ⟨⟨1, 0⟩, ⟨3, 1⟩, .structural⟩ ∧
      doc.situation sel settings = doc'.situation sel settings ∧
      (doc.situation sel settings).decide settings = (doc'.situation sel settings).decide settings ∧
      Outcome.ofTrigger settings (some ⟨doc, sel⟩) = Outcome.ofTrigger settings (some ⟨doc', sel⟩) := by
  intro doc doc' settings sel
  have hagree : ∀ row, 2 - min 1 50 ≤ row → row ≤ 2 + min 1 50 → doc.line row = doc'.line row := by
    intro row hle hrow
    obtain rfl | rfl | rfl : row = 1 ∨ row = 2 ∨ row = 3 := by omega
    all_goals rfl
  exact ⟨hagree, by decide, situation_of_agree_near doc doc' (.caret ⟨2, 1⟩) settings hagree⟩

def setChar (doc : Document) (row col : Nat) (c : Char) : Document :=
  ⟨doc.lines.modify row (·.set col c)⟩

theorem line_setChar (doc : Document) (row col : Nat) (c : Char) (r : Nat) :
    (doc.setChar row col c).line r = if row = r then (doc.line r).set col c else doc.line r := by
  rw [line, setChar, List.getElem?_modify, line]
  cases doc.lines[r]? with
  | none => simp
  | some line => split <;> simp [*]

/-- An escaped character is inert: whatever takes its place, white space apart, the situation stays the
same in every respect, and so does what the trigger does. -/
theorem situation_setChar_of_isEscaped (doc : Document) (sel : Selection) (settings : Settings)
    {row col : Nat} {old new : Char} (hold : (doc.line row)[col]? = some old)
    (hescaped : Text.isEscaped (doc.line row) col = true) (hspace : Text.isSpace old = false)
    (hspace' : Text.isSpace new = false) :
    (doc.setChar row col new).situation sel settings = doc.situation sel settings ∧
      Outcome.ofTrigger settings (some ⟨doc.setChar row col new, sel⟩) =
        Outcome.ofTrigger settings (some ⟨doc, sel⟩) := by
  have halike (r : Nat) : Alike ((doc.setChar row col new).line r) (doc.line r) := by
    rw [line_setChar]
    split
    · next hr =>
      subst hr
      exact .set hold hescaped (hspace.trans hspace'.symm)
    · exact .of_eq rfl
  have hsame : (doc.setChar row col new).situation sel settings = doc.situation sel settings :=
    situation_congr settings (fun s _ => halike s.head.row) fun r _ _ => halike r
  exact ⟨hsame, by simp only [Outcome.ofTrigger, hsame]⟩

/-- An escaped quote in brackets, and a bracket in its place. -/
theorem situation_setChar_quote :
    let doc : Document := ⟨[['(', '\\', '"', 'a', ')']]⟩
    let sel : Selection := .caret ⟨0, 4⟩
    doc.line 0 = ['(', '\\', '"', 'a', ')'] ∧ Text.isEscaped (doc.line 0) 2 = true ∧
      Text.isSpace '"' = false ∧ Text.isSpace ')' = false ∧
      doc.enclosure? 50 sel.primary = some ⟨⟨0, 0⟩, ⟨0, 5⟩, .structural⟩ ∧
      (doc.setChar 0 2 ')').situation sel {} = doc.situation sel {} ∧
      Outcome.ofTrigger {} (some ⟨doc.setChar 0 2 ')', sel⟩) = Outcome.ofTrigger {} (some ⟨doc, sel⟩) := by
  intro doc sel
  exact ⟨rfl, rfl, rfl, rfl, by decide,
    @situation_setChar_of_isEscaped doc sel {} 0 2 '"' ')' rfl rfl rfl rfl⟩

end Document

end TabKey
