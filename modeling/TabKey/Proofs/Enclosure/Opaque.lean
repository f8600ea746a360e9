import TabKey.Proofs.Enclosure.LineWalk
import TabKey.Proofs.Enclosure.Local
import TabKey.Proofs.Enclosure.Sound

/-! Literals on rows other than the caret's. Below the caret a literal is passed over whole; above it quotes do not
count, and what a literal holds is read like the rest of its row. -/
namespace TabKey
open Text (bare)

namespace Lexeme

/-- Read from the right, brackets of all kinds sharing one depth, two contents that begin at column `col` leave
the same openers unclosed in the same places, and equally many closers over. -/
def ReadAlike (row col : Nat) (content content' : List Char) : Prop :=
  ∀ depth, Mark.unclosed depth (marks row col (content.map char)).reverse =
    Mark.unclosed depth (marks row col (content'.map char)).reverse

/-- Contents whose brackets are properly nested read alike, those without brackets among them. -/
theorem readAlike_of_nested {row col : Nat} {content content' : List Char}
    (h : Mark.Nested (marks row col (content.map char)))
    (h' : Mark.Nested (marks row col (content'.map char))) : ReadAlike row col content content' := by
  intro depth
  rw [h.unclosed_reverse, h'.unclosed_reverse]

theorem render_literal (left right : List Lexeme) (content : List Char) :
    render (left ++ literal content :: right) =
      render left ++ ['"'] ++ content ++ '"' :: render right := by
  simp [render, text]

/-- The brackets of a line outside its literals do not depend on what a literal holds. -/
theorem marks_literal {content content' : List Char} (row col : Nat) (left right : List Lexeme)
    (hlen : content'.length = content.length) :
    marks row col (left ++ literal content' :: right) = marks row col (left ++ literal content :: right) := by
  rw [marks_append, marks_append, marks, marks]
  simp only [mark?, text, List.length_cons, List.length_append, hlen]

/-- All brackets of a line with a literal, those of its content apart. -/
private theorem marks_chars (row : Nat) (left right : List Lexeme) (content : List Char) :
    marks row 0 ((render (left ++ literal content :: right)).map char) =
      marks row 0 ((render left ++ ['"']).map char) ++
        marks row ((render left).length + 1) (content.map char) ++
          marks row ((render left).length + 1 + content.length) (('"' :: render right).map char) := by
  rw [render_literal, List.map_append, List.map_append, marks_append, marks_append, ← List.map_append,
    render_map_char, render_map_char]
  simp only [List.length_append, List.length_singleton, Nat.zero_add]

end Lexeme

namespace Enclosure
open Lexeme (render marks Tidy ReadAlike reserved)
variable {left right : List Lexeme} {content content' : List Char}

private theorem onRow_injective (row : Nat) : Function.Injective (onRow row) := by
  rintro ⟨d, col⟩ ⟨d', col'⟩ h
  cases h
  rfl

/-- Where quotes do not count, the walk to the left over a row is the search among all its brackets. -/
private theorem openerBefore_row (row depth : Nat) (line : List Char) :
    (openerBefore false depth 0 (bare line).reverse).map (onRow row) =
      Mark.unclosed depth (marks row 0 (line.map .char)).reverse := by
  have hquoted : false = true → ∀ c ∈ line, c ∉ reserved := nofun
  have hchars := openerBefore_chars row depth [] hquoted
  rw [List.append_nil] at hchars
  rw [Text.reverse_bare]
  exact hchars.trans (Walk.andThen_past _)

/-- Above the caret a literal may hold other brackets as long as they read alike. -/
theorem openerBefore_of_readAlike {row : Nat} (hlen : content'.length = content.length)
    (h : ReadAlike row ((render left).length + 1) content content') (depth : Nat) :
    openerBefore false depth 0 (bare (render (left ++ .literal content :: right))).reverse =
      openerBefore false depth 0 (bare (render (left ++ .literal content' :: right))).reverse := by
  apply Walk.map_injective (onRow_injective row)
  rw [openerBefore_row, openerBefore_row, Lexeme.marks_chars, Lexeme.marks_chars, hlen]
  simp only [List.reverse_append, Mark.unclosed_append, h _]

/-- Below the caret a literal may hold anything. -/
theorem closerAfter_of_literal {d : Delimiter} (hd : d.kind = .structural)
    (htidy : Tidy (left ++ .literal content :: right)) (htidy' : Tidy (left ++ .literal content' :: right))
    (hlen : content'.length = content.length) (depth : Nat) :
    closerAfter d depth 0 0 (bare (render (left ++ .literal content :: right))) =
      closerAfter d depth 0 0 (bare (render (left ++ .literal content' :: right))) := by
  have hinjective : Function.Injective (Position.mk 0) := fun col col' h => (Position.mk.inj h).2
  apply Walk.map_injective hinjective
  rw [closerAfter_line hd 0 depth 0 htidy, closerAfter_line hd 0 depth 0 htidy',
    Lexeme.marks_literal 0 0 left right hlen]

/-- The rows above an opener are not looked at. -/
theorem openerAbove_of_hit {doc doc' : Document} {window depth row : Nat} {d : Delimiter} {o : Position}
    (h : openerAbove doc window depth row = some (d, o))
    (hsame : ∀ r, o.row ≤ r → r < row → doc.glyphs r = doc'.glyphs r) :
    openerAbove doc' window depth row = some (d, o) := by
  induction window generalizing depth row with
  | zero => cases h
  | succ window ih =>
    cases row with
    | zero => cases h
    | succ row =>
      have hle : o.row ≤ row := Nat.le_of_lt_succ (openerAbove_eq_some h).2.1
      rw [openerAbove, hsame row hle (Nat.lt_succ_self row)] at h
      rw [openerAbove]
      cases hwalk : openerBefore false depth 0 (doc'.glyphs row).reverse with
      | hit found =>
        rw [hwalk] at h
        exact h
      | past k =>
        rw [hwalk] at h
        exact ih h fun r hr hlt => hsame r hr (Nat.lt_succ_of_lt hlt)

theorem opener?_of_hit {doc doc' : Document} {window : Nat} {caret o : Position} {d : Delimiter}
    (h : opener? doc window caret = some (d, o))
    (hsame : ∀ r, o.row ≤ r → r ≤ caret.row → doc.glyphs r = doc'.glyphs r) :
    opener? doc' window caret = some (d, o) := by
  have hle : o.row ≤ caret.row := by
    rcases (opener?_eq_some h).2.1 with hlt | ⟨heq, -⟩
    · exact Nat.le_of_lt hlt
    · exact Nat.le_of_eq heq
  rw [opener?, hsame caret.row hle (Nat.le_refl _)] at h
  rw [opener?]
  cases hwalk : openerBefore true 0 0 ((doc'.glyphs caret.row).take caret.col).reverse with
  | hit found =>
    rw [hwalk] at h
    exact h
  | past k =>
    rw [hwalk] at h
    exact openerAbove_of_hit h fun r hr hlt => hsame r hr (Nat.le_of_lt hlt)

/-- The content of a literal on another row than the caret's may be replaced without effect, whatever brackets it
holds, if the row lies below the caret or beyond the window. Above the caret that holds as long as the opener lies
below the row or the two contents read alike. -/
theorem find?_of_literal_replaced {doc doc' : Document} {row : Nat} (window : Nat) (caret : Position)
    (htidy : Tidy (left ++ .literal content :: right)) (hlen : content'.length = content.length)
    (hplain : ∀ c ∈ content', c ∉ reserved)
    (hline : doc.line row = render (left ++ .literal content :: right))
    (hline' : doc'.line row = render (left ++ .literal content' :: right))
    (hother : ∀ r, r ≠ row → doc.line r = doc'.line r)
    (hrow : caret.row < row ∨ row + min window 50 < caret.row ∨
      (row < caret.row ∧ ((∃ d o, opener? doc (min window 50) caret = some (d, o) ∧ row < o.row) ∨
        ReadAlike row ((render left).length + 1) content content'))) :
    find? doc window caret = find? doc' window caret := by
  have htidy' : Tidy (left ++ .literal content' :: right) := htidy.replace hplain
  have hglyphs : doc.glyphs row = bare (render (left ++ .literal content :: right)) := by
    rw [Document.glyphs, hline, Text.glyphs_eq_bare htidy.backslash_not_mem]
  have hglyphs' : doc'.glyphs row = bare (render (left ++ .literal content' :: right)) := by
    rw [Document.glyphs, hline', Text.glyphs_eq_bare htidy'.backslash_not_mem]
  have hsame (r : Nat) (hr : r ≠ row) : doc.glyphs r = doc'.glyphs r := congrArg Text.glyphs (hother r hr)
  have hcaret : doc.line caret.row = doc'.line caret.row := hother caret.row (by omega)
  apply find?_of_opener?_closer?
  · have hwalks (hread : ∀ k, caret.row - min window maxWindow ≤ row → row < caret.row →
        openerBefore false k 0 (doc.glyphs row).reverse = openerBefore false k 0 (doc'.glyphs row).reverse) :
        opener? doc (min window maxWindow) caret = opener? doc' (min window maxWindow) caret := by
      apply opener?_of_walks hcaret
      intro r k hle hlt
      by_cases hr : r = row
      · subst hr
        exact hread k hle hlt
      · rw [hsame r hr]
    rcases hrow with hbelow | hfar | ⟨habove, ⟨d, o, hfound, hlt⟩ | halike⟩
    · exact hwalks fun k _ hlt => absurd hlt (Nat.lt_asymm hbelow)
    · apply hwalks
      intro k hle _
      rw [show maxWindow = 50 from rfl] at hle
      omega
    · have hfound' : opener? doc' (min window 50) caret = some (d, o) :=
        opener?_of_hit hfound fun r hle _ => hsame r (by omega)
      exact hfound.trans hfound'.symm
    · apply hwalks
      intro k _ _
      rw [hglyphs, hglyphs']
      exact openerBefore_of_readAlike hlen halike k
  · intro d
    apply closer?_of_walks hcaret
    intro hd r k hlt _
    by_cases hr : r = row
    · subst hr
      rw [hglyphs, hglyphs']
      exact closerAfter_of_literal hd htidy htidy' hlen k
    · rw [hsame r hr]

/-- One pair of brackets for another in a literal above the caret, inside a pair that opens before the literal. -/
theorem find?_of_literal_replaced_above :
    let doc : Document := ⟨[['(', '"', '(', ')', '"'], ['x'], [')']]⟩
    let doc' : Document := ⟨[['(', '"', '[', ']', '"'], ['x'], [')']]⟩
    Tidy ([.char '('] ++ .literal ['(', ')'] :: []) ∧ (∀ c ∈ ['[', ']'], c ∉ reserved) ∧
      doc.line 0 = render ([.char '('] ++ .literal ['(', ')'] :: []) ∧
      doc'.line 0 = render ([.char '('] ++ .literal ['[', ']'] :: []) ∧
      (∀ r, r ≠ 0 → doc.line r = doc'.line r) ∧ ReadAlike 0 2 ['(', ')'] ['[', ']'] ∧
      find? doc' 50 ⟨1, 1⟩ = some ⟨⟨0, 0⟩, ⟨2, 1⟩, .structural⟩ ∧
      find? doc 50 ⟨1, 1⟩ = find? doc' 50 ⟨1, 1⟩ := by
  intro doc doc'
  have htidy : Tidy ([.char '('] ++ .literal ['(', ')'] :: []) :=
    ⟨by simp [Lexeme.content, reserved], by simp [Lexeme.isLiteral]⟩
  have hlen : ['[', ']'].length = ['(', ')'].length := rfl
  have hplain : ∀ c ∈ ['[', ']'], c ∉ reserved := by simp [reserved]
  have hother : ∀ r, r ≠ 0 → doc.line r = doc'.line r := by
    intro r hr
    obtain ⟨r, rfl⟩ := Nat.exists_eq_succ_of_ne_zero hr
    rfl
  have halike : ReadAlike 0 2 ['(', ')'] ['[', ']'] :=
    Lexeme.readAlike_of_nested
      (show Mark.Nested (⟨⟨0, 2⟩, .paren, true⟩ :: ([] ++ ⟨⟨0, 3⟩, .paren, false⟩ :: [])) from .pair .nil .nil)
      (show Mark.Nested (⟨⟨0, 2⟩, .bracket, true⟩ :: ([] ++ ⟨⟨0, 3⟩, .bracket, false⟩ :: [])) from .pair .nil .nil)
  exact ⟨htidy, hplain, rfl, rfl, hother, halike, by decide,
    find?_of_literal_replaced 50 ⟨1, 1⟩ htidy hlen hplain rfl rfl hother (.inr (.inr ⟨by decide, .inr halike⟩))⟩

/-- A bracket left open in a literal above the caret is taken for the opener. -/
theorem not_forall_find?_of_literal_replaced :
    ¬ ∀ (doc doc' : Document) (left right : List Lexeme) (content content' : List Char) (row window : Nat)
        (caret : Position), Tidy (left ++ .literal content :: right) → content'.length = content.length →
      (∀ c ∈ content', c ∉ reserved) → doc.line row = render (left ++ .literal content :: right) →
      doc'.line row = render (left ++ .literal content' :: right) →
      (∀ r, r ≠ row → doc.line r = doc'.line r) → row ≠ caret.row →
      find? doc window caret = find? doc' window caret := by
  intro h
  have htidy : Tidy ([] ++ .literal ['a'] :: []) :=
    ⟨by simp [Lexeme.content, reserved], by simp⟩
  have hother : ∀ r, r ≠ 0 → Document.line ⟨[['"', 'a', '"'], ['x', ')']]⟩ r =
      Document.line ⟨[['"', '(', '"'], ['x', ')']]⟩ r := by
    intro r hr
    obtain ⟨r, rfl⟩ := Nat.exists_eq_succ_of_ne_zero hr
    rfl
  have hplain : ∀ c ∈ ['('], c ∉ reserved := by simp [reserved]
  have hsame := h _ _ [] [] ['a'] ['('] 0 50 ⟨1, 0⟩ htidy rfl hplain rfl rfl hother (by decide)
  exact absurd hsame (by decide)

end Enclosure

end TabKey
