import Mathlib.Data.List.TakeWhile
import TabKey.Proofs.Enclosure.LineWalk
import TabKey.Proofs.Enclosure.Sound

/-! Carets inside a literal. The walk to the left takes what lies between two literals for one, and reads what the
literals hold. -/
namespace TabKey
open Text (Glyph bare)

namespace Lexeme

def document (line : List Lexeme) : Document := ⟨[render line]⟩

/-- The bracket ends inside the literals of a line, where `col` is the column it starts at. -/
def inner (row : Nat) : (col : Nat) → List Lexeme → List Mark
  | _, [] => []
  | col, char _ :: rest => inner row (col + 1) rest
  | col, literal content :: rest =>
    marks row (col + 1) (content.map char) ++ inner row (col + (content.length + 2)) rest

def firstLiteral (line : List Lexeme) : Nat := (render (line.takeWhile (!·.isLiteral))).length

theorem inner_append (row col : Nat) (a b : List Lexeme) :
    inner row col (a ++ b) = inner row col a ++ inner row (col + (render a).length) b := by
  induction a generalizing col with
  | nil => rfl
  | cons x a ih =>
    cases x with
    | char c => simp [inner, ih, render, text, Nat.add_assoc, Nat.add_comm 1]
    | literal content =>
      simp only [List.cons_append, inner, ih, List.append_assoc, render, List.flatMap_cons, text,
        List.length_append, List.length_cons, List.length_nil]
      congr 3
      omega

theorem inner_of_forall_char {row col : Nat} {line : List Lexeme} (h : ∀ x ∈ line, x.isLiteral = false) :
    inner row col line = [] := by
  induction line generalizing col with
  | nil => rfl
  | cons x line ih =>
    cases x with
    | char c => exact ih fun y hy => h y (List.mem_cons_of_mem _ hy)
    | literal content => cases h _ List.mem_cons_self

theorem kind_of_mem_inner {row col : Nat} {line : List Lexeme} {m : Mark} (h : m ∈ inner row col line) :
    m.delimiter.kind = .structural := by
  induction line generalizing col with
  | nil => cases h
  | cons x line ih =>
    cases x with
    | char c => exact ih h
    | literal content =>
      rcases List.mem_append.mp h with h | h
      · exact kind_of_mem_marks h
      · exact ih h

theorem marks_eq_nil {row col : Nat} {cs : List Char} (h : ∀ c ∈ cs, isBracket c = false) :
    marks row col (cs.map char) = [] := by
  induction cs generalizing col with
  | nil => rfl
  | cons c cs ih =>
    obtain ⟨hopener, hcloser⟩ := isBracket_eq_false.mp (h c List.mem_cons_self)
    rw [List.map_cons, marks, ih fun x hx => h x (List.mem_cons_of_mem _ hx)]
    simp [mark?, hopener, hcloser]

/-- A line without literals, or cut at its last one. -/
theorem exists_last_literal (line : List Lexeme) :
    (∀ x ∈ line, x.isLiteral = false) ∨
      ∃ left content mid, line = left ++ literal content :: mid ∧ ∀ x ∈ mid, x.isLiteral = false := by
  induction line with
  | nil => exact .inl nofun
  | cons x line ih =>
    rcases ih with hchars | ⟨left, content, mid, rfl, hmid⟩
    · cases x with
      | char c => exact .inl (List.forall_mem_cons.mpr ⟨rfl, hchars⟩)
      | literal content => exact .inr ⟨[], content, line, rfl, hchars⟩
    · exact .inr ⟨x :: left, content, mid, rfl, hmid⟩

theorem firstLiteral_append (left mid : List Lexeme) (content : List Char) :
    firstLiteral (left ++ literal content :: mid) = firstLiteral left := by
  have htake : (left ++ literal content :: mid).takeWhile (!·.isLiteral) = left.takeWhile (!·.isLiteral) := by
    induction left with
    | nil => rfl
    | cons x left ih => rw [List.cons_append, List.takeWhile_cons, List.takeWhile_cons, ih]
  rw [firstLiteral, htake, firstLiteral]

theorem firstLiteral_of_forall_char {line : List Lexeme} (h : ∀ x ∈ line, x.isLiteral = false) :
    firstLiteral line = (render line).length := by
  rw [firstLiteral, List.takeWhile_eq_self_iff.mpr fun x hx => by rw [h x hx]; rfl]

theorem Tidy.quote_not_mem_render {line : List Lexeme} (h : Tidy line) (hchars : ∀ x ∈ line, x.isLiteral = false) :
    '"' ∉ render line := by
  intro hmem
  obtain ⟨x, hx, hc⟩ := List.mem_flatMap.mp hmem
  cases x with
  | char c => exact h.plain _ hx '"' hc (by decide)
  | literal content => cases hchars _ hx

end Lexeme

namespace Enclosure
open Lexeme (reserved)

/-- At the opening quote of a literal the walk hits that quote if it is the first of the line, and else goes on
inside the literal before. -/
theorem openerBefore_quote {left : List Lexeme} (depth : Nat) (hleft : Lexeme.Tidy left)
    (hlast : (Lexeme.render left).getLast? ≠ some '"') :
    (∀ x ∈ left, x.isLiteral = false) ∧
        openerBefore true depth 0 (bare ('"' :: (Lexeme.render left).reverse)) =
          .hit (.double, (Lexeme.render left).length) ∨
      ∃ left' content mid, left = left' ++ .literal content :: mid ∧ (∀ x ∈ mid, x.isLiteral = false) ∧
        openerBefore true depth 0 (bare ('"' :: (Lexeme.render left).reverse)) =
          openerBefore true depth 0 (bare (content.reverse ++ '"' :: (Lexeme.render left').reverse)) := by
  rcases Lexeme.exists_last_literal left with hchars | ⟨left', content, mid, rfl, hmid⟩
  · have hwalk := openerBefore_unpaired Delimiter.double_mem_quotes rfl depth (mt List.mem_reverse.mp (hleft.quote_not_mem_render hchars))
    rw [List.length_reverse] at hwalk
    exact .inl ⟨hchars, hwalk⟩
  · have hnear : '"' ∉ (Lexeme.render mid).reverse := by
      rw [List.append_cons] at hleft
      exact mt List.mem_reverse.mp (hleft.right.quote_not_mem_render hmid)
    have htext : (Lexeme.render (left' ++ .literal content :: mid)).reverse = (Lexeme.render mid).reverse ++
        '"' :: (content.reverse ++ '"' :: (Lexeme.render left').reverse) := by
      simp [Lexeme.render, Lexeme.text]
    rw [← List.head?_reverse, htext] at hlast
    refine .inr ⟨left', content, mid, rfl, hmid, ?_⟩
    rw [htext]
    refine openerBefore_paired Delimiter.double_mem_quotes rfl depth hnear ?_
    rintro ⟨rest, hrest⟩
    exact hlast (hrest ▸ rfl)

/-- From inside a literal the walk sees the brackets before it that are inside literals. When they leave no
opener, it stops at the first quote of the line. -/
theorem openerBefore_inside {left : List Lexeme} {content : List Char} (row depth : Nat)
    (hleft : Lexeme.Tidy left) (hlast : (Lexeme.render left).getLast? ≠ some '"')
    (hcontent : ∀ c ∈ content, c ∉ reserved) :
    (openerBefore true depth 0 (bare (content.reverse ++ '"' :: (Lexeme.render left).reverse))).map (onRow row) =
      (Mark.unclosed depth (Lexeme.inner row 0 left ++
        Lexeme.marks row ((Lexeme.render left).length + 1) (content.map .char)).reverse).andThen fun _ =>
          .hit (.double, ⟨row, Lexeme.firstLiteral left⟩) := by
  have hchars := openerBefore_chars row depth ('"' :: (Lexeme.render left).reverse) fun _ : true = true => hcontent
  rw [List.length_cons, List.length_reverse] at hchars
  rw [hchars, List.reverse_append, Mark.unclosed_append, Walk.andThen_assoc]
  refine congrArg _ (funext fun k => ?_)
  rcases openerBefore_quote k hleft hlast with ⟨hnone, hwalk⟩ | ⟨left', content', mid, rfl, hmid, hwalk⟩
  · rw [hwalk, Lexeme.inner_of_forall_char hnone, Lexeme.firstLiteral_of_forall_char hnone]
    rfl
  · have hbefore : Lexeme.Tidy (left' ++ [.literal content']) := by
      rw [List.append_cons] at hleft
      exact hleft.left
    have hinner : Lexeme.inner row 0 (left' ++ .literal content' :: mid) = Lexeme.inner row 0 left' ++
        Lexeme.marks row ((Lexeme.render left').length + 1) (content'.map .char) := by
      rw [Lexeme.inner_append, Lexeme.inner, Lexeme.inner_of_forall_char hmid, List.append_nil, Nat.zero_add]
    rw [hwalk, hinner, Lexeme.firstLiteral_append]
    exact openerBefore_inside row k hbefore.left hbefore.getLast?_ne fun c hc =>
      hleft.plain (.literal content') (by simp) c hc
termination_by left.length

section
variable {left right : List Lexeme} {content : List Char} {col : Nat}

private theorem glyphs_inside (htidy : Lexeme.Tidy (left ++ .literal content :: right)) :
    (Lexeme.document (left ++ .literal content :: right)).glyphs 0 =
      bare (Lexeme.render left ++ '"' :: (content ++ '"' :: Lexeme.render right)) := by
  have htext : Lexeme.render (left ++ .literal content :: right) =
      Lexeme.render left ++ '"' :: (content ++ '"' :: Lexeme.render right) := by
    simp [Lexeme.render, Lexeme.text]
  rw [← htext]
  exact Text.glyphs_eq_bare htidy.backslash_not_mem

/-- The search to the left from inside a literal without brackets. -/
theorem opener?_inside (window : Nat) (htidy : Lexeme.Tidy (left ++ .literal content :: right))
    (hquiet : ∀ c ∈ content, Lexeme.isBracket c = false) (hlt : (Lexeme.render left).length < col)
    (hcol : col < (Lexeme.render left).length + content.length + 2) :
    opener? (Lexeme.document (left ++ .literal content :: right)) window ⟨0, col⟩ =
      ((Mark.unclosed 0 (Lexeme.inner 0 0 left).reverse).andThen fun _ =>
        .hit (.double, ⟨0, Lexeme.firstLiteral left⟩)).found? := by
  obtain ⟨n, rfl⟩ := Nat.exists_eq_add_of_lt hlt
  have htake : (((Lexeme.document (left ++ .literal content :: right)).glyphs 0).take
      ((Lexeme.render left).length + n + 1)).reverse =
        bare ((content.take n).reverse ++ '"' :: (Lexeme.render left).reverse) := by
    have hn : n ≤ content.length := by omega
    have hcut : (Lexeme.render left ++ '"' :: (content ++ '"' :: Lexeme.render right)).take
        ((Lexeme.render left).length + n + 1) = Lexeme.render left ++ '"' :: content.take n := by
      rw [Nat.add_assoc, List.take_length_add_append, List.take_succ_cons, List.take_append_of_le_length hn]
    rw [glyphs_inside htidy, Text.take_bare, hcut, Text.reverse_bare, List.reverse_append, List.reverse_cons,
      List.append_assoc]
    rfl
  have hmarks : Lexeme.marks 0 ((Lexeme.render left).length + 1) ((content.take n).map .char) = [] :=
    Lexeme.marks_eq_nil fun c hc => hquiet c (List.mem_of_mem_take hc)
  have hbefore : Lexeme.Tidy (left ++ [.literal content]) := by
    rw [List.append_cons] at htidy
    exact htidy.left
  have hplain : ∀ c ∈ content.take n, c ∉ reserved := fun c hc =>
    htidy.plain (.literal content) (by simp) c (List.mem_of_mem_take hc)
  have hwalk := openerBefore_inside 0 0 hbefore.left hbefore.getLast?_ne hplain
  rw [hmarks, List.append_nil] at hwalk
  rw [← hwalk, opener?, htake]
  cases openerBefore true 0 0 (bare ((content.take n).reverse ++ '"' :: (Lexeme.render left).reverse)) with
  | hit found => rfl
  | past depth => cases window <;> rfl

/-- A quote closes at the end of the literal. -/
theorem closer?_inside_double (window : Nat) (htidy : Lexeme.Tidy (left ++ .literal content :: right))
    (hlt : (Lexeme.render left).length < col)
    (hcol : col < (Lexeme.render left).length + content.length + 2) :
    closer? (Lexeme.document (left ++ .literal content :: right)) .double window ⟨0, col⟩ =
      some ⟨0, (Lexeme.render left).length + content.length + 2⟩ := by
  obtain ⟨n, rfl⟩ := Nat.exists_eq_add_of_lt hlt
  have hn : n ≤ content.length := by omega
  have hmin : min ((Lexeme.render left).length + n + 1)
      ((Lexeme.document (left ++ .literal content :: right)).line 0).length =
        (Lexeme.render left).length + n + 1 := by
    rw [← Document.length_glyphs, glyphs_inside htidy]
    simp only [bare, List.length_map, List.length_append, List.length_cons]
    omega
  have hdrop : ((Lexeme.document (left ++ .literal content :: right)).glyphs 0).drop
      ((Lexeme.render left).length + n + 1) = bare (content.drop n ++ '"' :: Lexeme.render right) := by
    rw [glyphs_inside htidy, Text.drop_bare, Nat.add_assoc, List.drop_length_add_append, List.drop_succ_cons,
      List.drop_append_of_le_length hn]
  have hfirst : Token.first? Delimiter.double.closer (bare (content.drop n ++ '"' :: Lexeme.render right)) =
      some (content.drop n).length :=
    Token.first?_bare _ fun hmem => htidy.quote_not_mem (by simp) (List.mem_of_mem_drop hmem)
  have hstop : (Lexeme.render left).length + n + 1 + (content.drop n).length + Delimiter.double.closer.length =
      (Lexeme.render left).length + content.length + 2 := by
    rw [List.length_drop, show Delimiter.double.closer.length = 1 from rfl]
    omega
  simp only [closer?, hmin, hdrop, hfirst, Delimiter.kind, Option.map_some, hstop]

/-- No bracket closes there. -/
theorem closer?_inside_ne {d : Delimiter} (hd : d.kind = .structural) (window : Nat) :
    closer? (Lexeme.document (left ++ .literal content :: right)) d window ⟨0, col⟩ ≠
      some ⟨0, (Lexeme.render left).length + content.length + 2⟩ := by
  intro h
  obtain ⟨⟨start, hstart, ⟨hspelled, -⟩, -⟩, -⟩ := closer?_eq_some h
  obtain ⟨c, hc⟩ := List.length_eq_one_iff.mp (Delimiter.length_of_structural hd).2
  have hline : (Lexeme.document (left ++ .literal content :: right)).line 0 =
      (Lexeme.render left ++ '"' :: content) ++ '"' :: Lexeme.render right := by
    simp [Document.line, Lexeme.document, Lexeme.render, Lexeme.text]
  have hplace : start = (Lexeme.render left ++ '"' :: content).length := by
    rw [hc] at hstart
    simp only [List.length_append, List.length_cons, List.length_nil] at hstart ⊢
    omega
  rw [hline, hplace, List.drop_left, hc, List.cons_prefix_cons] at hspelled
  have hquote := Delimiter.ofCloser?_eq_some.mpr ⟨hd, hc⟩
  rw [hspelled.1] at hquote
  cases hquote

/-- From inside a literal without brackets the search finds the end of that literal exactly when the brackets
inside the literals before it on the line, read from right to left with one depth for all kinds, leave no
opener unclosed. The rest of the line is of no account. -/
theorem find?_inside_literal_iff (window : Nat) (htidy : Lexeme.Tidy (left ++ .literal content :: right))
    (hquiet : ∀ c ∈ content, Lexeme.isBracket c = false) (hlt : (Lexeme.render left).length < col)
    (hcol : col < (Lexeme.render left).length + content.length + 2) :
    (∃ e, find? (Lexeme.document (left ++ .literal content :: right)) window ⟨0, col⟩ = some e ∧
        e.closed = ⟨0, (Lexeme.render left).length + content.length + 2⟩) ↔
      ∃ depth, Mark.unclosed 0 (Lexeme.inner 0 0 left).reverse = .past depth := by
  rw [find?, within?, opener?_inside _ htidy hquiet hlt hcol]
  cases hwalk : Mark.unclosed 0 (Lexeme.inner 0 0 left).reverse with
  | past depth =>
    refine iff_of_true ⟨⟨⟨0, Lexeme.firstLiteral left⟩, _, .string⟩, ?_, rfl⟩ ⟨depth, rfl⟩
    simp only [Walk.andThen, Walk.found?, closer?_inside_double _ htidy hlt hcol]
    rfl
  | hit found =>
    obtain ⟨d, opened⟩ := found
    have hd : d.kind = .structural :=
      Lexeme.kind_of_mem_inner (List.mem_reverse.mp (Mark.mem_of_unclosed hwalk))
    refine iff_of_false ?_ ?_
    · rintro ⟨e, he, hclosed⟩
      obtain ⟨closed, hcloser, rfl⟩ := Option.map_eq_some_iff.mp he
      exact closer?_inside_ne hd _ (hcloser.trans (congrArg some hclosed))
    · rintro ⟨depth, hpast⟩
      cases hpast

end

/-- A balanced literal before the caret's own, with a bracket between them that does not count. -/
theorem find?_inside_second_literal :
    Lexeme.Tidy [.literal ['(', ')'], .char '[', .literal ['a'], .char ']'] ∧
      ∃ e, find? (Lexeme.document [.literal ['(', ')'], .char '[', .literal ['a'], .char ']']) 0 ⟨0, 6⟩ =
        some e ∧ e.closed = ⟨0, 8⟩ := by
  have htidy : Lexeme.Tidy ([.literal ['(', ')'], .char '['] ++ .literal ['a'] :: [.char ']']) :=
    ⟨by simp [Lexeme.content, Lexeme.reserved], by simp [Lexeme.isLiteral]⟩
  have hquiet : ∀ c ∈ ['a'], Lexeme.isBracket c = false := List.forall_mem_singleton.mpr rfl
  exact ⟨htidy, (find?_inside_literal_iff 0 htidy hquiet (by decide) (by decide)).mpr ⟨0, rfl⟩⟩

/-- A bracket left open in an earlier literal is taken for the opener, and its closer may stand anywhere after
the caret's literal. -/
theorem not_forall_find?_inside_literal :
    ¬ ∀ (left right : List Lexeme) (content : List Char) (window col : Nat),
      Lexeme.Tidy (left ++ .literal content :: right) → (∀ c ∈ content, Lexeme.isBracket c = false) →
      (Lexeme.render left).length < col → col < (Lexeme.render left).length + content.length + 2 →
      ∃ e, find? (Lexeme.document (left ++ .literal content :: right)) window ⟨0, col⟩ = some e ∧
        e.closed = ⟨0, (Lexeme.render left).length + content.length + 2⟩ := by
  intro h
  have htidy : Lexeme.Tidy ([.literal ['('], .char ' '] ++ .literal ['a'] :: [.char ')']) :=
    ⟨by simp [Lexeme.content, Lexeme.reserved], by simp [Lexeme.isLiteral]⟩
  have hquiet : ∀ c ∈ ['a'], Lexeme.isBracket c = false := List.forall_mem_singleton.mpr rfl
  obtain ⟨e, he, hclosed⟩ := h _ _ _ 0 5 htidy hquiet (by decide) (by decide)
  have hfind : find? (Lexeme.document ([.literal ['('], .char ' '] ++ .literal ['a'] :: [.char ')'])) 0 ⟨0, 5⟩ =
      some ⟨⟨0, 1⟩, ⟨0, 8⟩, .structural⟩ := by decide
  cases he.symm.trans hfind
  exact absurd hclosed (by decide)

end Enclosure

end TabKey
