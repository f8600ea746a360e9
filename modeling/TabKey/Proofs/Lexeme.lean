import Mathlib.Data.List.Chain
import TabKey.Proofs.Nesting
import TabKey.Proofs.Token

namespace TabKey
open Text (Glyph bare)

/-- A part of a line: one character, or a complete double-quoted literal with its content. -/
inductive Lexeme
  | char (c : Char)
  | literal (content : List Char)
deriving DecidableEq, Repr

namespace Lexeme

/-- Quotes and the escape. A literal's own two quotes apart, a line has none of them. -/
def reserved : List Char := ['"', '\x27', '\x60', '\\']

def content : Lexeme → List Char
  | char c => [c]
  | literal content => content

def text : Lexeme → List Char
  | char c => [c]
  | literal content => '"' :: (content ++ ['"'])

def isLiteral : Lexeme → Bool
  | char _ => false
  | literal _ => true

def render (line : List Lexeme) : List Char := line.flatMap text

/-- No stray quotes, no backslashes, and something between any two literals. -/
structure Tidy (line : List Lexeme) : Prop where
  plain : ∀ x ∈ line, ∀ c ∈ x.content, c ∉ reserved
  apart : line.IsChain fun a b => ¬ (a.isLiteral ∧ b.isLiteral)

def Inside (line : List Lexeme) (col : Nat) : Prop :=
  ∃ left content right, line = left ++ literal content :: right ∧
    (render left).length < col ∧ col < (render left).length + content.length + 2

def isBracket (c : Char) : Bool := (Delimiter.ofOpener? c).isSome || (Delimiter.ofCloser? c).isSome

theorem isBracket_eq_false {c : Char} :
    isBracket c = false ↔ Delimiter.ofOpener? c = none ∧ Delimiter.ofCloser? c = none := by
  rw [isBracket, Bool.or_eq_false_iff, Option.isSome_eq_false_iff, Option.isNone_iff_eq_none,
    Option.isSome_eq_false_iff, Option.isNone_iff_eq_none]

def mark? (p : Position) : Lexeme → Option Mark
  | char c =>
    match Delimiter.ofOpener? c with
    | some d => some ⟨p, d, true⟩
    | none => (Delimiter.ofCloser? c).map fun d => ⟨p, d, false⟩
  | literal _ => none

theorem mark?_eq_some {p : Position} {x : Lexeme} {m : Mark} (h : x.mark? p = some m) :
    ∃ c, x = char c ∧ m.place = p ∧
      (Delimiter.ofOpener? c = some m.delimiter ∨ Delimiter.ofCloser? c = some m.delimiter) := by
  cases x with
  | literal content => cases h
  | char c =>
    refine ⟨c, rfl, ?_⟩
    rw [mark?] at h
    split at h
    · next d hd =>
      cases h
      exact ⟨rfl, .inl hd⟩
    · obtain ⟨d, hd, rfl⟩ := Option.map_eq_some_iff.mp h
      exact ⟨rfl, .inr hd⟩

theorem place_of_mark? {p : Position} {x : Lexeme} {m : Mark} (h : x.mark? p = some m) : m.place = p := by
  obtain ⟨_, -, hplace, -⟩ := mark?_eq_some h
  exact hplace

/-- A mark's delimiter is a bracket. -/
theorem kind_of_mark? {p : Position} {x : Lexeme} {m : Mark} (h : x.mark? p = some m) :
    m.delimiter.kind = .structural := by
  obtain ⟨_, -, -, hd | hd⟩ := mark?_eq_some h
  · exact (Delimiter.ofOpener?_eq_some.mp hd).1
  · exact (Delimiter.ofCloser?_eq_some.mp hd).1

def glyphMark? (p : Position) (g : Glyph) : Option Mark := if g.escaped then none else mark? p (.char g.char)

def marks (row : Nat) : (col : Nat) → List Lexeme → List Mark
  | _, [] => []
  | col, x :: rest => (x.mark? ⟨row, col⟩).toList ++ marks row (col + x.text.length) rest

theorem render_append (a b : List Lexeme) : render (a ++ b) = render a ++ render b :=
  List.flatMap_append

/-- Characters by themselves are their own text. -/
@[simp] theorem render_map_char (cs : List Char) : render (cs.map char) = cs := by
  simp [render, List.flatMap_map, text]

theorem marks_append (row col : Nat) (a b : List Lexeme) :
    marks row col (a ++ b) = marks row col a ++ marks row (col + (render a).length) b := by
  induction a generalizing col with
  | nil => rfl
  | cons x a ih => simp [marks, ih, render, Nat.add_assoc]

theorem place_of_mem_marks {row col : Nat} {line : List Lexeme} {m : Mark}
    (h : m ∈ marks row col line) :
    m.place.row = row ∧ col ≤ m.place.col ∧ m.place.col < col + (render line).length := by
  induction line generalizing col with
  | nil => cases h
  | cons x line ih =>
    have hlen : 0 < x.text.length := by cases x <;> simp [text]
    rw [marks, List.mem_append] at h
    simp only [render, List.flatMap_cons, List.length_append] at ih ⊢
    rcases h with h | h
    · rw [place_of_mark? (Option.mem_toList.mp h)]
      exact ⟨rfl, Nat.le_refl _, by simp only; omega⟩
    · obtain ⟨hrow, hle, hlt⟩ := ih h
      exact ⟨hrow, by omega, by omega⟩

/-- The bracket ends of a line stand in text order. -/
theorem marks_pairwise (row col : Nat) (line : List Lexeme) :
    (marks row col line).Pairwise fun a b => a.place < b.place := by
  induction line generalizing col with
  | nil => exact .nil
  | cons x line ih =>
    refine List.pairwise_append.mpr ⟨?_, ih _, ?_⟩
    · cases x.mark? ⟨row, col⟩ <;> simp
    · intro a ha b hb
      have hone : a ∈ marks row col [x] := by simpa [marks] using ha
      obtain ⟨harow, -, halt⟩ := place_of_mem_marks hone
      obtain ⟨hbrow, hble, -⟩ := place_of_mem_marks hb
      simp only [render, List.flatMap_cons, List.flatMap_nil, List.append_nil] at halt
      exact .inr ⟨harow.trans hbrow.symm, by omega⟩

theorem kind_of_mem_marks {row col : Nat} {line : List Lexeme} {m : Mark}
    (h : m ∈ marks row col line) : m.delimiter.kind = .structural := by
  induction line generalizing col with
  | nil => cases h
  | cons x line ih =>
    rw [marks, List.mem_append, Option.mem_toList] at h
    rcases h with h | h
    · exact kind_of_mark? h
    · exact ih h

/-- A column that is not inside a literal parts the line between two lexemes. -/
theorem exists_split {line : List Lexeme} {col : Nat} (hcol : col ≤ (render line).length)
    (h : ¬ Inside line col) : ∃ left right, line = left ++ right ∧ (render left).length = col := by
  induction line generalizing col with
  | nil => exact ⟨[], [], rfl, (Nat.le_zero.mp hcol).symm⟩
  | cons x line ih =>
    have hwidth : (render (x :: line)).length = x.text.length + (render line).length := by
      simp [render]
    by_cases hle : x.text.length ≤ col
    · have hnot : ¬ Inside line (col - x.text.length) := by
        rintro ⟨left, content, right, rfl, hlt, hlt'⟩
        refine h ⟨x :: left, content, right, rfl, ?_, ?_⟩
        · simp only [render, List.flatMap_cons, List.length_append] at hlt ⊢
          omega
        · simp only [render, List.flatMap_cons, List.length_append] at hlt' ⊢
          omega
      obtain ⟨left, right, rfl, hlen⟩ := ih (by omega) hnot
      refine ⟨x :: left, right, rfl, ?_⟩
      simp only [render, List.flatMap_cons, List.length_append] at hlen ⊢
      omega
    · cases x with
      | char c =>
        have hzero : col = 0 := by
          simp only [text, List.length_singleton] at hle
          omega
        exact ⟨[], _, rfl, hzero.symm⟩
      | literal content =>
        simp only [text, List.length_cons, List.length_append, List.length_nil] at hle
        rcases Nat.eq_zero_or_pos col with rfl | hpos
        · exact ⟨[], _, rfl, rfl⟩
        · exact absurd ⟨[], content, line, rfl, hpos, by simp [render]; omega⟩ h

namespace Tidy

theorem nil : Tidy [] := ⟨by simp, .nil⟩

theorem left {a b : List Lexeme} (h : Tidy (a ++ b)) : Tidy a :=
  ⟨fun x hx => h.plain x (List.mem_append_left _ hx), h.apart.left_of_append⟩

theorem right {a b : List Lexeme} (h : Tidy (a ++ b)) : Tidy b :=
  ⟨fun x hx => h.plain x (List.mem_append_right _ hx), h.apart.right_of_append⟩

/-- A literal may be given other content. -/
theorem replace {left right : List Lexeme} {content content' : List Char}
    (h : Tidy (left ++ literal content :: right)) (hplain : ∀ c ∈ content', c ∉ reserved) :
    Tidy (left ++ literal content' :: right) where
  plain := by
    intro x hx
    rcases List.mem_append.mp hx with hx | hx
    · exact h.plain x (List.mem_append_left _ hx)
    · rcases List.mem_cons.mp hx with rfl | hx
      · exact hplain
      · exact h.plain x (List.mem_append_right _ (List.mem_cons_of_mem _ hx))
  apart := by
    have hchain := h.apart
    rw [List.isChain_append] at hchain ⊢
    refine ⟨hchain.1, ?_, ?_⟩
    · have hright := hchain.2.1
      cases right with
      | nil => exact .singleton _
      | cons x right =>
        rw [List.isChain_cons_cons] at hright ⊢
        exact hright
    · intro a ha b hb
      cases hb
      exact hchain.2.2 a ha (literal content) rfl

theorem backslash_not_mem {line : List Lexeme} (h : Tidy line) : '\\' ∉ render line := by
  intro hmem
  obtain ⟨x, hx, hc⟩ := List.mem_flatMap.mp hmem
  have hcontent : '\\' ∈ x.content := by
    cases x <;> simpa [text, content] using hc
  exact h.plain x hx _ hcontent (by decide)

theorem quote_not_mem {line : List Lexeme} {content : List Char} (h : Tidy line)
    (hl : literal content ∈ line) : '"' ∉ content :=
  fun hc => h.plain _ hl _ hc (by decide)

/-- What follows a literal does not begin with a quote. -/
theorem head?_ne {content : List Char} {rest : List Lexeme} (h : Tidy (literal content :: rest)) :
    (render rest).head? ≠ some '"' := by
  cases rest with
  | nil => simp [render]
  | cons x rest =>
    have hx := (List.isChain_cons_cons.mp h.apart).1
    cases x with
    | literal _ => simp [isLiteral] at hx
    | char c =>
      have hc := h.plain (char c) (by simp) c (by simp [Lexeme.content])
      intro heq
      cases heq
      exact hc (by decide)

/-- What comes before a literal does not end with a quote. -/
theorem getLast?_ne {content : List Char} {before : List Lexeme}
    (h : Tidy (before ++ [literal content])) : (render before).getLast? ≠ some '"' := by
  cases hb : before using List.reverseRecOn with
  | nil => simp [render]
  | append_singleton before x =>
    have hx : ¬ (x.isLiteral ∧ (literal content).isLiteral) :=
      (List.isChain_append.mp (hb ▸ h).apart).2.2 _ (by simp) _ (by simp)
    cases x with
    | literal _ => simp [isLiteral] at hx
    | char c =>
      have hc := (hb ▸ h).plain (char c) (by simp) c (by simp [Lexeme.content])
      intro heq
      rw [render_append] at heq
      simp only [render, List.flatMap_cons, text, List.flatMap_nil, List.append_nil,
        List.getLast?_concat, Option.some.injEq] at heq
      exact hc (heq ▸ by decide)

end Tidy

end Lexeme

end TabKey
