import Mathlib.Algebra.Ring.Parity
import TabKey.Proofs.Enclosure.LineWalk

/-! One kind of quote on a line by itself. The walk to the left passes over the quotes two at a time, so it is their
number that decides whether the caret is inside a literal. -/
namespace TabKey.Enclosure
open Text (bare)

/-- No brackets and no backslashes, and of all quotes only `c`, never three times in a row. -/
structure OneQuote (c : Char) (line : List Char) : Prop where
  quote : ∃ d ∈ Delimiter.quotes, d.opener = [c]
  quiet : ∀ x ∈ line, Lexeme.isBracket x = false
  plain : '\\' ∉ line
  only : ∀ x ∈ line, ∀ q ∈ Delimiter.quotes, x ∈ q.opener → x = c
  no_three : ¬ [c, c, c] <:+: line

namespace OneQuote
variable {c : Char} {line : List Char}

theorem of_infix {part : List Char} (h : OneQuote c line) (hpart : part <:+: line) : OneQuote c part where
  quote := h.quote
  quiet x hx := h.quiet x (hpart.subset hx)
  plain hx := h.plain (hpart.subset hx)
  only x hx := h.only x (hpart.subset hx)
  no_three hthree := h.no_three (hthree.trans hpart)

theorem reverse (h : OneQuote c line) : OneQuote c line.reverse where
  quote := h.quote
  quiet x hx := h.quiet x (List.mem_reverse.mp hx)
  plain hx := h.plain (List.mem_reverse.mp hx)
  only x hx := h.only x (List.mem_reverse.mp hx)
  no_three hthree := h.no_three (List.reverse_infix.mp (by simpa using hthree))

end OneQuote

/-- A text with none of a character, with one, or cut at its first two. -/
private theorem cut_at_pair (c : Char) (cs : List Char) :
    c ∉ cs ∨ (∃ near far, cs = near ++ c :: far ∧ c ∉ near ∧ c ∉ far) ∨
      ∃ near mid far, cs = near ++ c :: (mid ++ c :: far) ∧ c ∉ near ∧ c ∉ mid := by
  by_cases hmem : c ∈ cs
  · obtain ⟨near, rest, rfl, hnear⟩ := List.eq_append_cons_of_mem hmem
    by_cases hrest : c ∈ rest
    · obtain ⟨mid, far, rfl, hmid⟩ := List.eq_append_cons_of_mem hrest
      exact .inr (.inr ⟨near, mid, far, rfl, hnear, hmid⟩)
    · exact .inr (.inl ⟨near, rest, rfl, hnear, hrest⟩)
  · exact .inl hmem

/-- The walk to the left by the number of quotes: with an even one it passes the line, with an odd one it comes to the
line's first quote. -/
theorem openerBefore_by_parity {d : Delimiter} {c : Char} {cs : List Char} (hd : d ∈ Delimiter.quotes)
    (hc : d.opener = [c]) (h : OneQuote c cs) (depth : Nat) :
    openerBefore true depth 0 (bare cs) =
      if Odd (cs.count c) then .hit (d, cs.reverse.idxOf c) else .past depth := by
  induction hlen : cs.length using Nat.strong_induction_on generalizing cs with
  | h n ih =>
    have hinert (near far : List Char) (hnear : near <:+: cs) (hquote : c ∉ near) :
        openerBefore true depth 0 (bare (near ++ far)) = openerBefore true depth 0 (bare far) :=
      openerBefore_inert depth far (fun x hx => h.quiet x (hnear.subset hx)) fun _ x hx q hq hmem =>
        hquote (h.only x (hnear.subset hx) q hq hmem ▸ hx)
    rcases cut_at_pair c cs with hnone | ⟨near, far, rfl, hnear, hfar⟩ | ⟨near, mid, far, rfl, hnear, hmid⟩
    · have hwalk := hinert cs [] List.infix_rfl hnone
      rw [List.append_nil] at hwalk
      rw [hwalk, List.count_eq_zero.mpr hnone]
      rfl
    · have hcount : (near ++ c :: far).count c = 1 := by
        simp [List.count_eq_zero.mpr hnear, List.count_eq_zero.mpr hfar]
      have hfirst : (near ++ c :: far).reverse.idxOf c = far.length := by
        rw [List.reverse_append, List.reverse_cons, List.append_assoc,
          List.idxOf_append_of_notMem (mt List.mem_reverse.mp hfar), List.length_reverse]
        simp
      rw [hinert near _ (List.prefix_append _ _).isInfix hnear, openerBefore_unpaired hd hc depth hfar, hcount,
        if_pos odd_one, hfirst]
    · -- The nearest quote has a partner: both are passed over, and the parity stays.
      have hsuffix : far <:+: near ++ c :: (mid ++ c :: far) := ⟨near ++ c :: (mid ++ [c]), [], by simp⟩
      have hsingle : ¬ [c, c] <+: mid ++ c :: far := by
        rintro ⟨tail, htail⟩
        exact h.no_three ⟨near, tail, by rw [← htail]; simp⟩
      have hshort : far.length < n := by
        rw [← hlen]
        simp only [List.length_append, List.length_cons]
        omega
      have hodd : Odd ((near ++ c :: (mid ++ c :: far)).count c) ↔ Odd (far.count c) := by
        have hcount : (near ++ c :: (mid ++ c :: far)).count c = far.count c + 2 := by
          simp [List.count_eq_zero.mpr hnear, List.count_eq_zero.mpr hmid]
        rw [hcount, Nat.odd_iff, Nat.odd_iff, Nat.add_mod_right]
      rw [hinert near _ (List.prefix_append _ _).isInfix hnear, openerBefore_paired hd hc depth hmid hsingle,
        ih _ hshort (h.of_infix hsuffix) rfl]
      simp only [hodd]
      split
      · next hfar =>
        have hmem : c ∈ far.reverse := by
          rw [List.mem_reverse, ← List.count_pos_iff]
          exact Nat.pos_of_ne_zero fun hzero => by simp [hzero] at hfar
        have hreverse : (near ++ c :: (mid ++ c :: far)).reverse =
            far.reverse ++ (near ++ c :: (mid ++ [c])).reverse := by simp
        rw [hreverse, List.idxOf_append_of_mem hmem]
      · rfl

/-- Rows without brackets hold no opener. -/
theorem openerAbove_eq_none {doc : Document} (hplain : ∀ row, '\\' ∉ doc.line row)
    (hquiet : ∀ row, ∀ x ∈ doc.line row, Lexeme.isBracket x = false) (window depth row : Nat) :
    openerAbove doc window depth row = none := by
  induction window generalizing depth row with
  | zero => rfl
  | succ window ih =>
    cases row with
    | zero => rfl
    | succ row =>
      have hpast : openerBefore false depth 0 (doc.glyphs row).reverse = .past depth := by
        have hwalk := openerBefore_inert depth [] (fun x hx => hquiet row x (List.mem_reverse.mp hx))
          fun h : false = true => by cases h
        rw [List.append_nil] at hwalk
        rwa [Document.glyphs, Text.glyphs_eq_bare (hplain row), Text.reverse_bare]
      rw [openerAbove, hpast]
      exact ih depth row

section
variable {doc : Document} {c : Char} {d : Delimiter} {caret : Position} (hd : d ∈ Delimiter.quotes)
  (hc : d.opener = [c]) (h : OneQuote c (doc.line caret.row))
include hd hc h

theorem opener?_by_parity (hplain : ∀ row, '\\' ∉ doc.line row)
    (hquiet : ∀ row, ∀ x ∈ doc.line row, Lexeme.isBracket x = false) (window : Nat) :
    opener? doc window caret = if Odd (((doc.line caret.row).take caret.col).count c) then
      some (d, ⟨caret.row, ((doc.line caret.row).take caret.col).idxOf c⟩) else none := by
  have hbefore : ((doc.glyphs caret.row).take caret.col).reverse = bare ((doc.line caret.row).take caret.col).reverse := by
    rw [Document.glyphs, Text.glyphs_eq_bare h.plain, Text.take_bare, Text.reverse_bare]
  have hwalk := openerBefore_by_parity hd hc (h.of_infix (List.take_prefix caret.col _).isInfix).reverse 0
  rw [List.count_reverse, List.reverse_reverse] at hwalk
  rw [opener?, hbefore, hwalk]
  by_cases hodd : Odd (((doc.line caret.row).take caret.col).count c)
  · rw [if_pos hodd, if_pos hodd]
  · rw [if_neg hodd, if_neg hodd]
    exact openerAbove_eq_none hplain hquiet window 0 caret.row

theorem closer?_by_first (window : Nat) :
    closer? doc d window caret = if c ∈ (doc.line caret.row).drop caret.col then
      some ⟨caret.row, caret.col + ((doc.line caret.row).drop caret.col).idxOf c + 1⟩ else none := by
  have hkind := Delimiter.mem_quotes_iff.mp hd
  have hcloser : d.closer = [c] := (Delimiter.closer_eq_opener hkind).trans hc
  have hdrop : (doc.line caret.row).drop (min caret.col (doc.line caret.row).length) =
      (doc.line caret.row).drop caret.col := by
    rcases Nat.le_total caret.col (doc.line caret.row).length with hle | hle
    · rw [Nat.min_eq_left hle]
    · rw [Nat.min_eq_right hle, List.drop_length, List.drop_of_length_le hle]
  have hafter : (doc.glyphs caret.row).drop (min caret.col (doc.line caret.row).length) =
      bare ((doc.line caret.row).drop caret.col) := by
    rw [Document.glyphs, Text.glyphs_eq_bare h.plain, Text.drop_bare, hdrop]
  simp only [closer?, hkind, hafter, hcloser]
  by_cases hmem : c ∈ (doc.line caret.row).drop caret.col
  · obtain ⟨near, far, hsplit, hnear⟩ := List.eq_append_cons_of_mem hmem
    have hcol : caret.col ≤ (doc.line caret.row).length := by
      have hlen := congrArg List.length hsplit
      simp only [List.length_drop, List.length_append, List.length_cons] at hlen
      omega
    have hindex : (near ++ c :: far).idxOf c = near.length := by
      rw [List.idxOf_append_of_notMem hnear, List.idxOf_cons_self, Nat.add_zero]
    rw [if_pos hmem, hsplit, Token.first?_bare far hnear, hindex, Nat.min_eq_left hcol]
    rfl
  · rw [if_neg hmem, Token.first?_bare_eq_none hmem]
    rfl

end

/-- On a line by itself with one kind of quote and no brackets, a caret is inside a literal exactly when the quotes left
of it are odd in number and one stands to its right; the literal closes at the first one there. -/
theorem find?_by_parity {c : Char} {line : List Char} (h : OneQuote c line) (window : Nat) (caret : Position) :
    let doc : Document := ⟨[line]⟩
    let before := (doc.line caret.row).take caret.col
    let after := (doc.line caret.row).drop caret.col
    find? doc window caret =
      if Odd (before.count c) ∧ c ∈ after then
        some ⟨⟨caret.row, before.idxOf c⟩, ⟨caret.row, caret.col + after.idxOf c + 1⟩, .string⟩
      else none := by
  intro doc before after
  have hline (row : Nat) : doc.line row <:+: line := by
    cases row with
    | zero => exact List.infix_rfl
    | succ row => exact List.nil_infix
  obtain ⟨d, hd, hc⟩ := h.quote
  have hopener := opener?_by_parity hd hc (h.of_infix (hline caret.row)) (fun row hx => h.plain ((hline row).subset hx))
    (fun row x hx => h.quiet x ((hline row).subset hx)) (min window maxWindow)
  have hcloser := closer?_by_first hd hc (h.of_infix (hline caret.row)) (min window maxWindow)
  by_cases hodd : Odd (before.count c)
  · rw [if_pos hodd] at hopener
    rw [find?, within?, hopener]
    by_cases hafter : c ∈ after
    · rw [if_pos hafter] at hcloser
      rw [if_pos ⟨hodd, hafter⟩]
      simp only [hcloser, Option.map_some, Delimiter.mem_quotes_iff.mp hd]
      rfl
    · rw [if_neg hafter] at hcloser
      rw [if_neg fun hboth => hafter hboth.2]
      simp only [hcloser, Option.map_none]
  · rw [if_neg hodd] at hopener
    rw [find?, within?, hopener, if_neg fun hboth => hodd hboth.1]

/-- Between the quotes of a literal that follows an empty one. -/
theorem find?_by_parity_emptyLiteral :
    OneQuote '\x27' ['\x27', '\x27', ' ', '\x27', '\x27'] ∧
      find? ⟨[['\x27', '\x27', ' ', '\x27', '\x27']]⟩ 0 ⟨0, 4⟩ = some ⟨⟨0, 0⟩, ⟨0, 5⟩, .string⟩ := by
  have hmem : ∀ x ∈ ['\x27', '\x27', ' ', '\x27', '\x27'], x = '\x27' ∨ x = ' ' := by simp
  have h : OneQuote '\x27' ['\x27', '\x27', ' ', '\x27', '\x27'] := by
    refine ⟨⟨.single, by decide, rfl⟩, fun x hx => ?_, by decide, fun x hx => ?_, by decide⟩
    · rcases hmem x hx with rfl | rfl <;> rfl
    · rcases hmem x hx with rfl | rfl <;> decide
  exact ⟨h, (find?_by_parity h 0 ⟨0, 4⟩).trans (by decide)⟩

end TabKey.Enclosure
