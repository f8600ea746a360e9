import TabKey.Proofs.Enclosure.Reading

namespace TabKey
open Text (Glyph)

namespace Document
variable {doc : Document}

def markAt? (doc : Document) (p : Position) : Option Mark :=
  if Text.isEscaped (doc.line p.row) p.col then none
  else (doc.line p.row)[p.col]?.bind fun c => Lexeme.mark? p (.char c)

def marksIn (doc : Document) (row col count : Nat) : List Mark :=
  (List.range' col count).filterMap fun col => doc.markAt? ⟨row, col⟩

def marksOn (doc : Document) (row : Nat) : List Mark := doc.marksIn row 0 (doc.line row).length

def marks (doc : Document) : List Mark := Mark.rowsFrom doc.marksOn 0 doc.lineCount

def QuoteFree (doc : Document) : Prop := ∀ line ∈ doc.lines, ∀ c ∈ line, ∀ q ∈ Delimiter.quotes, c ∉ q.opener

theorem markAt?_eq {row col : Nat} {g : Glyph} (h : (doc.glyphs row)[col]? = some g) :
    doc.markAt? ⟨row, col⟩ = Lexeme.glyphMark? ⟨row, col⟩ g := by
  rw [glyphs, Text.getElem?_glyphs] at h
  obtain ⟨c, hc, rfl⟩ := Option.map_eq_some_iff.mp h
  rw [markAt?, hc]
  rfl

theorem markAt?_eq_some {p : Position} {m : Mark} (h : doc.markAt? p = some m) :
    m.place = p ∧ m.delimiter.kind = .structural := by
  rw [markAt?] at h
  split at h
  · cases h
  · obtain ⟨c, -, hc⟩ := Option.bind_eq_some_iff.mp h
    exact ⟨Lexeme.place_of_mark? hc, Lexeme.kind_of_mark? hc⟩

theorem mem_marksIn {row col count : Nat} {m : Mark} (h : m ∈ doc.marksIn row col count) :
    m.place.row = row ∧ col ≤ m.place.col ∧ m.place.col < col + count ∧ m.delimiter.kind = .structural := by
  obtain ⟨i, hi, hm⟩ := List.mem_filterMap.mp h
  obtain ⟨hplace, hkind⟩ := markAt?_eq_some hm
  obtain ⟨hle, hlt⟩ := List.mem_range'_1.mp hi
  rw [hplace]
  exact ⟨rfl, hle, hlt, hkind⟩

theorem marksIn_add (doc : Document) (row col m n : Nat) :
    doc.marksIn row col (m + n) = doc.marksIn row col m ++ doc.marksIn row (col + m) n := by
  rw [marksIn, ← List.range'_append_1, List.filterMap_append]
  rfl

theorem marksIn_one (row col : Nat) : doc.marksIn row col 1 = (doc.markAt? ⟨row, col⟩).toList := by
  rw [marksIn, List.range'_one, List.filterMap_cons]
  cases doc.markAt? ⟨row, col⟩ <;> rfl

theorem marksIn_pairwise (row col count : Nat) :
    (doc.marksIn row col count).Pairwise fun a b => a.place < b.place := by
  apply List.pairwise_filterMap.mpr
  apply (List.pairwise_lt_range' 1).imp
  intro i j hlt a ha b hb
  rw [(markAt?_eq_some ha).1, (markAt?_eq_some hb).1]
  exact .inr ⟨rfl, hlt⟩

theorem sorted_marks (doc : Document) : doc.marks.Pairwise fun a b => a.place < b.place :=
  Mark.rowsFrom_pairwise (fun _ _ hm => (mem_marksIn hm).1) (fun row => marksIn_pairwise row 0 _) 0 doc.lineCount

theorem marksOn_eq_nil {row : Nat} (h : doc.lineCount ≤ row) : doc.marksOn row = [] := by
  rw [marksOn, line_eq_nil_of_le h]
  rfl

theorem QuoteFree.not_mem_opener (h : doc.QuoteFree) {row col : Nat} {g : Glyph}
    (hg : (doc.glyphs row)[col]? = some g) : ∀ q ∈ Delimiter.quotes, g.char ∉ q.opener := by
  rw [glyphs, Text.getElem?_glyphs] at hg
  obtain ⟨c, hc, rfl⟩ := Option.map_eq_some_iff.mp hg
  by_cases hrow : row < doc.lineCount
  · have hline : doc.line row ∈ doc.lines := by
      rw [line, List.getElem?_eq_getElem hrow]
      exact List.getElem_mem hrow
    exact h _ hline c (List.mem_of_getElem? hc)
  · rw [line_eq_nil_of_le (Nat.le_of_not_lt hrow)] at hc
    cases hc

open Enclosure

/-- The walk to the left over a line without quotes is the search among its brackets. -/
theorem QuoteFree.openerBefore_take (h : doc.QuoteFree) (quoted : Bool) (row depth : Nat) {n : Nat}
    (hn : n ≤ (doc.line row).length) :
    (openerBefore quoted depth 0 ((doc.glyphs row).take n).reverse).map (onRow row) =
      Mark.unclosed depth (doc.marksIn row 0 n).reverse := by
  induction n generalizing depth with
  | zero => rfl
  | succ n ih =>
    have hlt : n < (doc.glyphs row).length := by
      rw [length_glyphs]
      exact hn
    have hg : (doc.glyphs row)[n]? = some (doc.glyphs row)[n] := List.getElem?_eq_getElem hlt
    have hfar : ((doc.glyphs row).take n).reverse.length = n := by
      rw [List.length_reverse, List.length_take_of_le hlt.le]
    have hmark : (doc.markAt? ⟨row, 0 + n⟩).toList.reverse =
        (Lexeme.glyphMark? ⟨row, n⟩ (doc.glyphs row)[n]).toList := by
      rw [Nat.zero_add, markAt?_eq hg]
      cases Lexeme.glyphMark? ⟨row, n⟩ (doc.glyphs row)[n] <;> rfl
    rw [List.take_add_one, hg, Option.toList_some, List.reverse_append, List.reverse_singleton, List.singleton_append,
      openerBefore_glyph row depth _ fun _ => h.not_mem_opener hg, hfar, marksIn_add, marksIn_one, List.reverse_append,
      hmark, Mark.unclosed_append]
    exact congrArg _ (funext fun k => ih k (Nat.le_of_succ_le hn))

/-- The walk to the right over a line without quotes is the search among its brackets. -/
theorem QuoteFree.closerAfter_drop (h : doc.QuoteFree) {d : Delimiter} (hd : d.kind = .structural) (row depth : Nat)
    {col count : Nat} (hcount : col + count = (doc.line row).length) :
    (closerAfter d depth 0 col ((doc.glyphs row).drop col)).map (Position.mk row) =
      (Mark.unopened d depth (doc.marksIn row col count)).map Position.next := by
  induction count generalizing depth col with
  | zero =>
    rw [List.drop_of_length_le (by rw [length_glyphs]; omega)]
    rfl
  | succ count ih =>
    have hlt : col < (doc.glyphs row).length := by
      rw [length_glyphs]
      omega
    have hg : (doc.glyphs row)[col]? = some (doc.glyphs row)[col] := List.getElem?_eq_getElem hlt
    rw [List.drop_eq_getElem_cons hlt, closerAfter_glyph hd row depth col _ (h.not_mem_opener hg), Nat.add_comm count,
      marksIn_add, marksIn_one, markAt?_eq hg, Mark.unopened_append, Walk.map_andThen]
    exact congrArg _ (funext fun k => ih k (by omega))

def QuoteFree.reading (h : doc.QuoteFree) (caret : Position) : Reading doc caret where
  marksOn := doc.marksOn
  left := doc.marksIn caret.row 0 (min caret.col (doc.line caret.row).length)
  right := doc.marksIn caret.row (min caret.col (doc.line caret.row).length)
    ((doc.line caret.row).length - min caret.col (doc.line caret.row).length)
  parted := by
    have hwhole : (doc.line caret.row).length = min caret.col (doc.line caret.row).length +
        ((doc.line caret.row).length - min caret.col (doc.line caret.row).length) := by omega
    have hadd := doc.marksIn_add caret.row 0 (min caret.col (doc.line caret.row).length)
      ((doc.line caret.row).length - min caret.col (doc.line caret.row).length)
    rwa [← hwhole, Nat.zero_add] at hadd
  row_eq _ _ hm := (mem_marksIn hm).1
  structural _ _ hm := (mem_marksIn hm).2.2.2
  left_lt m hm := by
    have := (mem_marksIn hm).2.2.1
    omega
  le_right m hm := by
    have := (mem_marksIn hm).2
    omega
  opener_here depth := by
    rw [List.take_eq_take_min, length_glyphs]
    exact h.openerBefore_take true caret.row depth (Nat.min_le_right _ _)
  opener_above row _ depth := by
    have hwhole := h.openerBefore_take false row depth (Nat.le_refl _)
    rwa [← doc.length_glyphs row, List.take_length, length_glyphs] at hwhole
  closer_here d hd depth := h.closerAfter_drop hd caret.row depth (by omega)
  closer_below row _ d hd depth := h.closerAfter_drop hd row depth (Nat.zero_add _)

end Document

end TabKey
