import TabKey.Proofs.Enclosure.Reading

/-! The search is exact on well-formed documents: it answers with the innermost pair around the caret if both ends lie
in the window, and with nothing otherwise. -/
namespace TabKey
open Text (bare)

namespace Lexeme

def lineAt (lines : List (List Lexeme)) (row : Nat) : List Lexeme := lines[row]?.getD []

def marksFrom (lines : List (List Lexeme)) (first count : Nat) : List Mark :=
  (List.range' first count).flatMap fun row => marks row 0 (lineAt lines row)

end Lexeme

/-- A document given by its lexemes: tidy lines, and brackets nested over the document as a whole. -/
structure Listing where
  lines : List (List Lexeme)
  tidy : ∀ line ∈ lines, Lexeme.Tidy line
  nested : Mark.Nested (Lexeme.marksFrom lines 0 lines.length)

namespace Listing
variable (src : Listing)

def line (row : Nat) : List Lexeme := Lexeme.lineAt src.lines row

def document : Document := ⟨src.lines.map Lexeme.render⟩

def marks : List Mark := Lexeme.marksFrom src.lines 0 src.lines.length

def QuietAbove (row : Nat) : Prop :=
  ∀ r < row, ∀ content, .literal content ∈ src.line r → ∀ c ∈ content, Lexeme.isBracket c = false

variable {src}

theorem line_eq_nil {row : Nat} (h : src.lines.length ≤ row) : src.line row = [] := by
  rw [line, Lexeme.lineAt, List.getElem?_eq_none_iff.mpr h]
  rfl

theorem tidy_line (src : Listing) (row : Nat) : Lexeme.Tidy (src.line row) := by
  rw [line, Lexeme.lineAt]
  cases h : src.lines[row]? with
  | none => exact .nil
  | some line => exact src.tidy line (List.mem_of_getElem? h)

theorem document_line (row : Nat) : src.document.line row = Lexeme.render (src.line row) := by
  rw [Document.line, document, List.getElem?_map, line, Lexeme.lineAt]
  cases src.lines[row]? <;> rfl

theorem document_glyphs (row : Nat) :
    src.document.glyphs row = bare (Lexeme.render (src.line row)) := by
  rw [Document.glyphs, document_line, Text.glyphs_eq_bare (src.tidy_line row).backslash_not_mem]

/-- Rows past the end hold no brackets. -/
theorem marks_eq_nil_of_le {row : Nat} (h : src.lines.length ≤ row) : Lexeme.marks row 0 (src.line row) = [] := by
  rw [line_eq_nil h]
  rfl

theorem sorted_marks (src : Listing) : src.marks.Pairwise fun a b => a.place < b.place :=
  Mark.rowsFrom_pairwise (fun _ _ hm => (Lexeme.place_of_mem_marks hm).1)
    (fun row => Lexeme.marks_pairwise row 0 _) 0 src.lines.length

open Enclosure

section
variable {caret : Position} {left right : List Lexeme}

/-- Up to the caret the walk to the left over its row is a search among the brackets before it. -/
private theorem openerBefore_left (hsplit : src.line caret.row = left ++ right)
    (hcol : (Lexeme.render left).length = caret.col) (depth : Nat) :
    (openerBefore true depth 0 ((src.document.glyphs caret.row).take caret.col).reverse).map (onRow caret.row) =
      Mark.unclosed depth (Lexeme.marks caret.row 0 left).reverse := by
  have htake : ((src.document.glyphs caret.row).take caret.col).reverse = bare (Lexeme.render left).reverse := by
    rw [document_glyphs, hsplit, Lexeme.render_append, ← hcol, Text.take_bare, List.take_left, Text.reverse_bare]
  rw [htake]
  exact openerBefore_line true caret.row depth (hsplit ▸ src.tidy_line caret.row).left fun h => by cases h

private theorem openerBefore_above {row : Nat} (hquiet : ∀ content, .literal content ∈ src.line row →
    ∀ c ∈ content, Lexeme.isBracket c = false) (depth : Nat) :
    (openerBefore false depth 0 (src.document.glyphs row).reverse).map (onRow row) =
      Mark.unclosed depth (Lexeme.marks row 0 (src.line row)).reverse := by
  rw [document_glyphs, Text.reverse_bare]
  exact openerBefore_line false row depth (src.tidy_line row) fun _ => hquiet

/-- From the caret on the walk to the right over its row is a search among the brackets after it. -/
private theorem closerAfter_right (hsplit : src.line caret.row = left ++ right)
    (hcol : (Lexeme.render left).length = caret.col) {d : Delimiter} (hd : d.kind = .structural) (depth : Nat) :
    (closerAfter d depth 0 (min caret.col (src.document.line caret.row).length)
      ((src.document.glyphs caret.row).drop (min caret.col (src.document.line caret.row).length))).map
        (Position.mk caret.row) =
          (Mark.unopened d depth (Lexeme.marks caret.row caret.col right)).map Position.next := by
  have hmin : min caret.col (src.document.line caret.row).length = caret.col := by
    rw [document_line, hsplit, Lexeme.render_append, List.length_append]
    omega
  have hdrop : (src.document.glyphs caret.row).drop caret.col = bare (Lexeme.render right) := by
    rw [document_glyphs, hsplit, Lexeme.render_append, ← hcol, Text.drop_bare, List.drop_left]
  rw [hmin, hdrop]
  exact closerAfter_line hd caret.row depth caret.col (hsplit ▸ src.tidy_line caret.row).right

private theorem closerAfter_below {d : Delimiter} (hd : d.kind = .structural) (row depth : Nat) :
    (closerAfter d depth 0 0 (src.document.glyphs row)).map (Position.mk row) =
      (Mark.unopened d depth (Lexeme.marks row 0 (src.line row))).map Position.next := by
  rw [document_glyphs]
  exact closerAfter_line hd row depth 0 (src.tidy_line row)

private theorem marks_parted (hsplit : src.line caret.row = left ++ right)
    (hcol : (Lexeme.render left).length = caret.col) :
    Lexeme.marks caret.row 0 (src.line caret.row) =
      Lexeme.marks caret.row 0 left ++ Lexeme.marks caret.row caret.col right := by
  rw [hsplit, Lexeme.marks_append, Nat.zero_add, hcol]

private theorem col_lt_of_mem_left (hcol : (Lexeme.render left).length = caret.col) {m : Mark}
    (hm : m ∈ Lexeme.marks caret.row 0 left) : m.place.col < caret.col := by
  have := (Lexeme.place_of_mem_marks hm).2.2
  omega

def reading (hsplit : src.line caret.row = left ++ right) (hcol : (Lexeme.render left).length = caret.col)
    (hquiet : src.QuietAbove caret.row) : Reading src.document caret where
  marksOn row := Lexeme.marks row 0 (src.line row)
  left := Lexeme.marks caret.row 0 left
  right := Lexeme.marks caret.row caret.col right
  parted := marks_parted hsplit hcol
  row_eq _ _ hm := (Lexeme.place_of_mem_marks hm).1
  structural _ _ hm := Lexeme.kind_of_mem_marks hm
  left_lt _ hm := col_lt_of_mem_left hcol hm
  le_right _ hm := (Lexeme.place_of_mem_marks hm).2.1
  opener_here := openerBefore_left hsplit hcol
  opener_above row hrow := openerBefore_above (hquiet row hrow)
  closer_here _ hd := closerAfter_right hsplit hcol hd
  closer_below row _ _ hd := closerAfter_below hd row

/-- The pair found is the innermost one around the caret, provided both its ends lie in the window. -/
theorem within?_eq_some_iff {window : Nat} {e : Enclosure} (hsplit : src.line caret.row = left ++ right)
    (hcol : (Lexeme.render left).length = caret.col) (hquiet : src.QuietAbove caret.row) :
    within? src.document window caret = some e ↔
      ∃ d o c, Mark.Innermost src.marks caret d o c ∧ caret.row - window ≤ o.row ∧ c.row ≤ caret.row + window ∧
        e = ⟨o, c.next, .structural⟩ := by
  let r := reading hsplit hcol hquiet
  have hmarks : src.marks = _ := r.marks_cut (fun _ hle => marks_eq_nil_of_le hle) window
  have hnested : Mark.Nested src.marks := src.nested
  have hsorted := src.sorted_marks
  rw [hmarks] at hnested hsorted
  have hiff {d : Delimiter} {o c : Position} := Mark.innermost_iff (d := d) (o := o) (c := c) hnested hsorted
    (fun _ => r.lt_caret_of_mem) fun _ => r.caret_le_of_mem
  rw [r.within?_eq_some_iff, hmarks]
  constructor
  · rintro ⟨d, o, c, hopener, hcloser, rfl⟩
    refine ⟨d, o, c, hiff.mpr ⟨?_, ?_⟩, ?_, ?_, rfl⟩
    · rw [List.reverse_append, Mark.unclosed_append, hopener]
      rfl
    · rw [Mark.unopened_append, hcloser]
      rfl
    · exact r.le_row_of_mem_before (List.mem_reverse.mp (Mark.mem_of_unclosed hopener))
    · exact r.row_le_of_mem_after (Mark.mem_of_unopened hcloser)
  · rintro ⟨d, o, c, hinner, ho, hc, rfl⟩
    obtain ⟨hopener, hcloser⟩ := hiff.mp hinner
    rw [List.reverse_append] at hopener
    -- The window holds both ends, so each search stops before it leaves the window.
    refine ⟨d, o, c, Mark.unclosed_of_append hopener ?_, Mark.unopened_of_append hcloser ?_, rfl⟩
    · intro hmem
      have := (Mark.row_of_mem_rowsFrom r.row_eq (List.mem_reverse.mp hmem)).2
      simp only at this
      omega
    · intro hmem
      have := (Mark.row_of_mem_rowsFrom r.row_eq hmem).1
      simp only at this
      omega

/-- The innermost pair around the caret is found if both its ends lie in the window. -/
theorem within?_of_innermost {window : Nat} {d : Delimiter} {o c : Position}
    (hsplit : src.line caret.row = left ++ right) (hcol : (Lexeme.render left).length = caret.col)
    (hquiet : src.QuietAbove caret.row) (h : Mark.Innermost src.marks caret d o c)
    (ho : caret.row - window ≤ o.row) (hc : c.row ≤ caret.row + window) :
    within? src.document window caret = some ⟨o, c.next, .structural⟩ :=
  (within?_eq_some_iff hsplit hcol hquiet).mpr ⟨d, o, c, h, ho, hc, rfl⟩

/-- Where there is no pair around the caret, none is found. -/
theorem within?_eq_none {window : Nat} (hsplit : src.line caret.row = left ++ right)
    (hcol : (Lexeme.render left).length = caret.col) (hquiet : src.QuietAbove caret.row)
    (h : ∀ d o c, Mark.Matched src.marks d o c → o < caret → ¬ caret ≤ c) :
    within? src.document window caret = none := by
  apply Option.eq_none_iff_forall_ne_some.mpr
  intro e he
  obtain ⟨d, o, c, hinner, -⟩ := (within?_eq_some_iff hsplit hcol hquiet).mp he
  exact h d o c hinner.matched hinner.opener_before hinner.closer_after

end

/-- On a well-formed document the search reports exactly the innermost pair around the caret, provided
both its ends lie in the window; in every other case it reports nothing. The caret may stand
anywhere but inside a literal. -/
theorem find?_eq_some_iff_innermost (src : Listing) (window : Nat) (caret : Position)
    (hcol : caret.col ≤ (src.document.line caret.row).length)
    (houtside : ¬ Lexeme.Inside (src.line caret.row) caret.col) (hquiet : src.QuietAbove caret.row)
    (e : Enclosure) :
    Enclosure.find? src.document window caret = some e ↔
      ∃ d o c, Mark.Innermost src.marks caret d o c ∧ caret.row - min window 50 ≤ o.row ∧
        c.row ≤ caret.row + min window 50 ∧ e = ⟨o, ⟨c.row, c.col + 1⟩, .structural⟩ := by
  rw [document_line] at hcol
  obtain ⟨left, right, hsplit, hlen⟩ := Lexeme.exists_split hcol houtside
  exact within?_eq_some_iff hsplit hlen hquiet

def overThreeRows : Listing where
  lines := [[.literal ['a'], .char '('], [.literal [']'], .char 'x'], [.literal [')'], .char ')']]
  tidy := by
    intro line hline
    simp only [List.mem_cons, List.not_mem_nil, or_false] at hline
    rcases hline with rfl | rfl | rfl <;>
      exact ⟨by simp [Lexeme.content, Lexeme.reserved], by simp [Lexeme.isLiteral]⟩
  nested := show Mark.Nested (⟨⟨0, 3⟩, .paren, true⟩ :: ([] ++ ⟨⟨2, 3⟩, .paren, false⟩ :: [])) from
    .pair .nil .nil

theorem find?_overThreeRows :
    3 ≤ (overThreeRows.document.line 1).length ∧ ¬ Lexeme.Inside (overThreeRows.line 1) 3 ∧
      overThreeRows.QuietAbove 1 ∧
      Enclosure.find? overThreeRows.document 1 ⟨1, 3⟩ = some ⟨⟨0, 3⟩, ⟨2, 4⟩, .structural⟩ := by
  have houtside : ¬ Lexeme.Inside (overThreeRows.line 1) 3 := by
    rintro ⟨left, content, right, h, hlt, hlt'⟩
    change [Lexeme.literal [']'], .char 'x'] = _ at h
    cases left with
    | nil =>
      cases h
      simp [Lexeme.render] at hlt'
    | cons x left => cases left <;> simp at h
  have hquiet : overThreeRows.QuietAbove 1 := by
    intro r hr content hm c hc
    obtain rfl : r = 0 := by omega
    change _ ∈ [Lexeme.literal ['a'], .char '('] at hm
    simp only [List.mem_cons, Lexeme.literal.injEq, reduceCtorEq, List.not_mem_nil, or_false] at hm
    rw [hm, List.mem_singleton] at hc
    rw [hc]
    decide
  have hinner : Mark.Innermost ([⟨⟨0, 3⟩, .paren, true⟩] ++ [⟨⟨2, 3⟩, .paren, false⟩]) ⟨1, 3⟩ .paren
      ⟨0, 3⟩ ⟨2, 3⟩ :=
    (Mark.innermost_iff overThreeRows.nested (by decide) (by decide) (by decide)).mpr ⟨rfl, rfl⟩
  exact ⟨by decide, houtside, hquiet,
    (find?_eq_some_iff_innermost overThreeRows 1 ⟨1, 3⟩ (by decide) houtside hquiet _).mpr
      ⟨.paren, ⟨0, 3⟩, ⟨2, 3⟩, hinner, by decide, by decide, rfl⟩⟩

end Listing

end TabKey
