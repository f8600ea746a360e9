import TabKey.Proofs.Lexeme

/-! Walks over one tidy line. Literals are passed over, and what remains is the search by depth on the brackets. -/
namespace TabKey

def Position.next (p : Position) : Position := ⟨p.row, p.col + 1⟩

namespace Enclosure
open Text (Glyph bare)
open Lexeme (reserved)

def onRow (row : Nat) (found : Delimiter × Nat) : Delimiter × Position := (found.1, ⟨row, found.2⟩)

theorem openerBefore_skip (quoted : Bool) (depth : Nat) (near far : List Glyph) :
    openerBefore quoted depth near.length (near ++ far) = openerBefore quoted depth 0 far := by
  induction near with
  | nil => rfl
  | cons g near ih => exact ih

/-- What is passed over might as well not be there. -/
theorem openerBefore_drop (quoted : Bool) (depth : Nat) {skip : Nat} {before : List Glyph}
    (h : skip ≤ before.length) :
    openerBefore quoted depth skip before = openerBefore quoted depth 0 (before.drop skip) := by
  have hskip := openerBefore_skip quoted depth (before.take skip) (before.drop skip)
  rwa [List.take_append_drop, List.length_take_of_le h] at hskip

/-- At the end of a quote the walk goes on before the like one nearest to the left, or stops. -/
theorem openerBefore_take_of_quote {line : List Char} {n : Nat} {q : Delimiter} (depth : Nat)
    (hquote : Token.quoteBefore? ((Text.glyphs line).take n).reverse = some q) (hn : n ≤ line.length) :
    openerBefore true depth 0 ((Text.glyphs line).take n).reverse =
      match Token.rfind? line (n - q.opener.length) q.opener with
      | some partner => openerBefore true depth 0 ((Text.glyphs line).take partner).reverse
      | none => .hit (q, n - q.opener.length) := by
  have hwidth : ((Text.glyphs line).take n).reverse.length = n := by
    rw [List.length_reverse, Text.length_take_glyphs hn]
  have hrest (k : Nat) : ((Text.glyphs line).take n).reverse.drop k = ((Text.glyphs line).take (n - k)).reverse := by
    rw [List.drop_reverse, List.take_take, Text.length_take_glyphs hn, Nat.min_eq_left (Nat.sub_le n k)]
  cases hbefore : ((Text.glyphs line).take n).reverse with
  | nil =>
    rw [hbefore] at hquote
    cases hquote
  | cons g before =>
    rw [hbefore] at hquote hwidth hrest
    rw [openerBefore, if_pos rfl, hquote]
    simp only [hrest, hwidth]
    cases hpartner : Token.rfind? line (n - q.opener.length) q.opener with
    | none =>
      rw [Token.rfind?] at hpartner
      simp only [hpartner]
    | some partner =>
      have hlt : partner < n := by
        have hpos := List.length_pos_iff.mpr q.opener_ne_nil
        have hstop := (Token.rfind?_eq_some hpartner).2
        omega
      have hlast : n = before.length + 1 := hwidth.symm
      have hskip := hrest (n - partner)
      rw [Nat.sub_sub_self hlt.le, hlast, Nat.sub_add_comm (by omega), List.drop_succ_cons] at hskip
      rw [Token.rfind?] at hpartner
      simp only [hpartner]
      rw [openerBefore_drop true depth (Nat.sub_le _ _), hskip]

theorem closerAfter_skip (d : Delimiter) (depth col : Nat) (near far : List Glyph) :
    closerAfter d depth near.length col (near ++ far) =
      closerAfter d depth 0 (col + near.length) far := by
  induction near generalizing col with
  | nil => rfl
  | cons g near ih => simpa [closerAfter, Nat.add_assoc, Nat.add_comm 1] using ih (col + 1)

private theorem not_mem_quote {c : Char} (h : c ∉ reserved) : ∀ q ∈ Delimiter.quotes, c ∉ q.opener := by
  have hsub : ∀ q ∈ Delimiter.quotes, q.opener ⊆ reserved := by decide
  exact fun q hq hc => h (hsub q hq hc)

private theorem not_two_quotes {content tail : List Char} (hc : '"' ∉ content)
    (ht : tail.head? ≠ some '"') : ¬ ['"', '"'] <+: content ++ '"' :: tail := by
  intro hp
  cases content with
  | nil =>
    cases tail with
    | nil => simp [List.cons_prefix_cons] at hp
    | cons x tail =>
      simp only [List.nil_append, List.cons_prefix_cons, List.nil_prefix, true_and, and_true] at hp
      exact ht (by rw [← hp]; rfl)
  | cons x content =>
    rw [List.cons_append, List.cons_prefix_cons] at hp
    exact hc (hp.1 ▸ List.mem_cons_self)

/-- One glyph to the left: a quote must not count, and a bracket is one step of the search. -/
theorem openerBefore_glyph {quoted : Bool} {g : Glyph} (row depth : Nat) (far : List Glyph)
    (h : quoted = true → ∀ q ∈ Delimiter.quotes, g.char ∉ q.opener) :
    (openerBefore quoted depth 0 (g :: far)).map (onRow row) =
      (Mark.unclosed depth (Lexeme.glyphMark? ⟨row, far.length⟩ g).toList).andThen fun k =>
        (openerBefore quoted k 0 far).map (onRow row) := by
  have hquote : (if quoted = true then Token.quoteBefore? (g :: far) else none) = none := by
    split
    · rename_i hq
      exact Token.quoteBefore?_eq_none far (h hq)
    · rfl
  rw [openerBefore, hquote, Lexeme.glyphMark?]
  cases g.escaped with
  | true => rfl
  | false =>
    simp only [Bool.false_eq_true, if_false, Lexeme.mark?]
    cases Delimiter.ofOpener? g.char with
    | some d =>
      cases depth with
      | zero => rfl
      | succ depth => rfl
    | none =>
      cases Delimiter.ofCloser? g.char with
      | some d => rfl
      | none => rfl

/-- One character to the left. -/
theorem openerBefore_char {quoted : Bool} {c : Char} (row depth : Nat) (far : List Char)
    (h : quoted = true → c ∉ reserved) :
    (openerBefore quoted depth 0 (bare (c :: far))).map (onRow row) =
      (Mark.unclosed depth (Lexeme.mark? ⟨row, far.length⟩ (.char c)).toList).andThen fun k =>
        (openerBefore quoted k 0 (bare far)).map (onRow row) := by
  have hglyph := openerBefore_glyph (g := ⟨c, false⟩) row depth (bare far) fun hq => not_mem_quote (h hq)
  rwa [show (bare far).length = far.length from List.length_map _] at hglyph

/-- Characters are steps of the search for an opener, and nothing else. Where quotes count, none of them may be
one. -/
theorem openerBefore_chars {quoted : Bool} {cs : List Char} (row depth : Nat) (far : List Char)
    (h : quoted = true → ∀ c ∈ cs, c ∉ reserved) :
    (openerBefore quoted depth 0 (bare (cs.reverse ++ far))).map (onRow row) =
      (Mark.unclosed depth (Lexeme.marks row far.length (cs.map .char)).reverse).andThen fun k =>
        (openerBefore quoted k 0 (bare far)).map (onRow row) := by
  induction cs using List.reverseRecOn generalizing depth with
  | nil => rfl
  | append_singleton cs c ih =>
    have ih := fun depth => ih depth fun hq x hx => h hq x (List.mem_append_left _ hx)
    have hlen : (cs.reverse ++ far).length = far.length + (Lexeme.render (cs.map .char)).length := by
      rw [Lexeme.render_map_char, List.length_append, List.length_reverse, Nat.add_comm]
    have hmarks : (Lexeme.marks row far.length ((cs ++ [c]).map .char)).reverse =
        (Lexeme.mark? ⟨row, (cs.reverse ++ far).length⟩ (.char c)).toList ++
          (Lexeme.marks row far.length (cs.map .char)).reverse := by
      rw [List.map_append, Lexeme.marks_append, hlen, List.map_singleton, Lexeme.marks, Lexeme.marks,
        List.append_nil, List.reverse_append]
      cases Lexeme.mark? ⟨row, far.length + (Lexeme.render (cs.map .char)).length⟩ (.char c) <;> rfl
    rw [List.reverse_append, List.reverse_singleton, List.append_assoc, List.singleton_append,
      openerBefore_char row depth _ fun hq => h hq c (by simp), hmarks, Mark.unclosed_append,
      Walk.andThen_assoc]
    exact congrArg _ (funext ih)

/-- Characters that are no brackets are passed over. Where quotes count, they must be none. -/
theorem openerBefore_inert {quoted : Bool} {near : List Char} (depth : Nat) (far : List Char)
    (h : ∀ c ∈ near, Lexeme.isBracket c = false)
    (hquote : quoted = true → ∀ c ∈ near, ∀ q ∈ Delimiter.quotes, c ∉ q.opener) :
    openerBefore quoted depth 0 (bare (near ++ far)) = openerBefore quoted depth 0 (bare far) := by
  induction near with
  | nil => rfl
  | cons c near ih =>
    obtain ⟨hopener, hcloser⟩ := Lexeme.isBracket_eq_false.mp (h c List.mem_cons_self)
    have hnone : (if quoted = true then Token.quoteBefore? (⟨c, false⟩ :: bare (near ++ far)) else none) = none := by
      split
      · next hq => exact Token.quoteBefore?_eq_none _ (hquote hq c List.mem_cons_self)
      · rfl
    rw [← ih (fun x hx => h x (List.mem_cons_of_mem _ hx)) fun hq x hx => hquote hq x (List.mem_cons_of_mem _ hx),
      List.cons_append, show bare (c :: (near ++ far)) = ⟨c, false⟩ :: bare (near ++ far) from rfl, openerBefore, hnone]
    simp [hopener, hcloser]

section
variable {d : Delimiter} {c : Char} (hd : d ∈ Delimiter.quotes) (hc : d.opener = [c])
include hd hc

/-- Where quotes count, a quote is passed over together with the next one further left and what lies between
them. -/
theorem openerBefore_paired {near far : List Char} (depth : Nat) (hnear : c ∉ near)
    (hsingle : ¬ [c, c] <+: near ++ c :: far) :
    openerBefore true depth 0 (bare (c :: (near ++ c :: far))) = openerBefore true depth 0 (bare far) := by
  have hquote : Token.quoteBefore? (⟨c, false⟩ :: bare (near ++ c :: far)) = some d := by
    have hbare := Token.quoteBefore?_bare (c :: (near ++ c :: far))
    rw [Token.quoteAt?_bare_single hd hc hsingle] at hbare
    exact hbare
  have hpartner : Token.last? d.opener ((⟨c, false⟩ :: bare (near ++ c :: far)).drop d.opener.length) =
      some far.length := by
    rw [hc]
    exact Token.last?_bare far hnear
  have hsplit : bare (near ++ c :: far) = bare (near ++ [c]) ++ bare far := by
    simp [bare]
  have hskip : (bare (near ++ c :: far)).length - far.length = (bare (near ++ [c])).length := by
    simp [bare]
    omega
  rw [show bare (c :: (near ++ c :: far)) = ⟨c, false⟩ :: bare (near ++ c :: far) from rfl,
    openerBefore, if_pos rfl, hquote]
  simp only [hpartner]
  rw [hskip, hsplit, openerBefore_skip]

/-- A quote with no other one before it is the opener. -/
theorem openerBefore_unpaired {far : List Char} (depth : Nat) (hfar : c ∉ far) :
    openerBefore true depth 0 (bare (c :: far)) = .hit (d, far.length) := by
  have hquote : Token.quoteBefore? (⟨c, false⟩ :: bare far) = some d := by
    have hbare := Token.quoteBefore?_bare (c :: far)
    rw [Token.quoteAt?_bare_single hd hc fun hp => hfar (hp.subset List.mem_cons_self)] at hbare
    exact hbare
  have hnone : Token.last? d.opener ((⟨c, false⟩ :: bare far).drop d.opener.length) = none := by
    rw [hc]
    exact Token.last?_bare_eq_none hfar
  rw [show bare (c :: far) = ⟨c, false⟩ :: bare far from rfl, openerBefore, if_pos rfl, hquote]
  simp only [hnone]
  simp [bare, hc]

end

/-- A complete literal is passed over as one where quotes count. -/
theorem openerBefore_literal {content : List Char} (depth : Nat) {far : List Char}
    (hc : '"' ∉ content) (hf : far.head? ≠ some '"') :
    openerBefore true depth 0 (bare ('"' :: (content ++ '"' :: far))) =
      openerBefore true depth 0 (bare far) :=
  openerBefore_paired Delimiter.double_mem_quotes rfl depth hc (not_two_quotes hc hf)

/-- The walk to the left over a tidy line is the search among its brackets. Where quotes do not
count, its literals must hold no brackets. -/
theorem openerBefore_line (quoted : Bool) {line : List Lexeme} (row depth : Nat)
    (h : Lexeme.Tidy line) (hquiet : quoted = false → ∀ content, .literal content ∈ line →
      ∀ c ∈ content, Lexeme.isBracket c = false) :
    (openerBefore quoted depth 0 (bare (Lexeme.render line).reverse)).map (onRow row) =
      Mark.unclosed depth (Lexeme.marks row 0 line).reverse := by
  induction line using List.reverseRecOn generalizing depth with
  | nil => rfl
  | append_singleton line x ih =>
    have hinit := h.left
    have ih := fun depth => ih depth hinit fun hq content hm =>
      hquiet hq content (List.mem_append_left _ hm)
    rw [Lexeme.marks_append, Nat.zero_add, List.reverse_append, Mark.unclosed_append,
      Lexeme.render_append, List.reverse_append]
    cases x with
    | char c =>
      have hc : quoted = true → c ∉ reserved := fun _ =>
        h.plain (.char c) (by simp) c (by simp [Lexeme.content])
      have hmark : (Lexeme.marks row (Lexeme.render line).length [.char c]).reverse =
          (Lexeme.mark? ⟨row, (Lexeme.render line).reverse.length⟩ (.char c)).toList := by
        rw [Lexeme.marks, Lexeme.marks, List.append_nil, List.length_reverse]
        cases Lexeme.mark? ⟨row, (Lexeme.render line).length⟩ (.char c) <;> rfl
      rw [hmark, show (Lexeme.render [.char c]).reverse = [c] from rfl, List.singleton_append,
        openerBefore_char row depth _ hc]
      exact congrArg _ (funext ih)
    | literal content =>
      have hmem : Lexeme.literal content ∈ line ++ [.literal content] := by simp
      have htext : (Lexeme.render [.literal content]).reverse = '"' :: (content.reverse ++ ['"']) := by
        simp [Lexeme.render, Lexeme.text]
      have hpast : openerBefore quoted depth 0
          (bare ('"' :: (content.reverse ++ '"' :: (Lexeme.render line).reverse))) =
            openerBefore quoted depth 0 (bare (Lexeme.render line).reverse) := by
        cases quoted with
        | true =>
          refine openerBefore_literal depth (by simpa using h.quote_not_mem hmem) ?_
          rw [List.head?_reverse]
          exact h.getLast?_ne
        | false =>
          have hin : ∀ c ∈ '"' :: (content.reverse ++ ['"']), Lexeme.isBracket c = false := by
            intro c hc
            simp only [List.mem_cons, List.mem_append, List.mem_reverse, List.not_mem_nil,
              or_false] at hc
            rcases hc with rfl | hc | rfl
            · rfl
            · exact hquiet rfl content hmem c hc
            · rfl
          have hwalk := openerBefore_inert depth (Lexeme.render line).reverse hin fun h : false = true => by cases h
          simpa using hwalk
      rw [htext, List.cons_append, List.append_assoc, List.singleton_append, hpast, ih]
      rfl

theorem quotedSpan?_eq_none {g : Glyph} (rest : List Glyph) (h : ∀ q ∈ Delimiter.quotes, g.char ∉ q.opener) :
    quotedSpan? (g :: rest) = none := by
  rw [quotedSpan?, Token.quoteAt?_eq_none rest h]

theorem quotedSpan?_literal {content rest : List Char} (hc : '"' ∉ content)
    (hr : rest.head? ≠ some '"') :
    quotedSpan? (bare ('"' :: (content ++ '"' :: rest))) = some (content.length + 2) := by
  have hfirst : Token.first? Delimiter.double.opener
      ((bare ('"' :: (content ++ '"' :: rest))).drop Delimiter.double.opener.length) =
        some content.length :=
    Token.first?_bare rest hc
  rw [quotedSpan?, Token.quoteAt?_bare_single Delimiter.double_mem_quotes rfl (not_two_quotes hc hr)]
  simp only [hfirst, Option.map_some, Option.some.injEq]
  simp only [Delimiter.opener, List.length_singleton]
  omega

private theorem beginsAt_closer {d : Delimiter} (hd : d.kind = .structural) (g : Glyph) (rest : List Glyph) :
    Token.beginsAt d.closer (g :: rest) = (!g.escaped && decide (Delimiter.ofCloser? g.char = some d)) := by
  obtain ⟨x, hx⟩ := List.length_eq_one_iff.mp (Delimiter.length_of_structural hd).2
  rw [Bool.eq_iff_iff, Token.beginsAt_cons_iff, Bool.and_eq_true, Bool.not_eq_true', decide_eq_true_iff,
    Delimiter.ofCloser?_eq_some, hx]
  simp [List.cons_prefix_cons, hd]

private theorem beginsAt_opener {d : Delimiter} (hd : d.kind = .structural) (g : Glyph) (rest : List Glyph) :
    Token.beginsAt d.opener (g :: rest) = (!g.escaped && decide (Delimiter.ofOpener? g.char = some d)) := by
  obtain ⟨x, hx⟩ := List.length_eq_one_iff.mp (Delimiter.length_of_structural hd).1
  rw [Bool.eq_iff_iff, Token.beginsAt_cons_iff, Bool.and_eq_true, Bool.not_eq_true', decide_eq_true_iff,
    Delimiter.ofOpener?_eq_some, hx]
  simp [List.cons_prefix_cons, hd]

/-- One glyph to the right that is no quote: a bracket is one step of the search. -/
theorem closerAfter_glyph {d : Delimiter} (hd : d.kind = .structural) {g : Glyph} (row depth col : Nat)
    (rest : List Glyph) (h : ∀ q ∈ Delimiter.quotes, g.char ∉ q.opener) :
    (closerAfter d depth 0 col (g :: rest)).map (Position.mk row) =
      ((Mark.unopened d depth (Lexeme.glyphMark? ⟨row, col⟩ g).toList).map Position.next).andThen
        fun k => (closerAfter d k 0 (col + 1) rest).map (Position.mk row) := by
  rw [closerAfter.eq_def]
  simp only [quotedSpan?_eq_none rest h, beginsAt_closer hd, beginsAt_opener hd, Lexeme.glyphMark?,
    (Delimiter.length_of_structural hd).2]
  cases g.escaped with
  | true => rfl
  | false =>
    simp only [Bool.not_false, Bool.true_and, Bool.false_eq_true, if_false, decide_eq_true_eq, Lexeme.mark?]
    cases ho : Delimiter.ofOpener? g.char with
    | some d' =>
      rw [Delimiter.ofCloser?_eq_none ho]
      by_cases hsame : d' = d
      · simp [hsame, Mark.unopened, Walk.map, Walk.andThen]
      · simp [hsame, Mark.unopened, Walk.map, Walk.andThen]
    | none =>
      cases Delimiter.ofCloser? g.char with
      | some d' =>
        by_cases hsame : d' = d
        · cases depth with
          | zero => simp [hsame, Mark.unopened, Walk.map, Walk.andThen, Position.next]
          | succ depth => simp [hsame, Mark.unopened, Walk.map, Walk.andThen]
        · simp [hsame, Mark.unopened, Walk.map, Walk.andThen]
      | none => simp [Mark.unopened, Walk.map, Walk.andThen]

/-- Characters that are neither brackets nor quotes are passed over. -/
theorem closerAfter_inert {d : Delimiter} (hd : d.kind = .structural) {near : List Char} (depth col : Nat)
    (far : List Glyph) (h : ∀ c ∈ near, Lexeme.isBracket c = false)
    (hquote : ∀ c ∈ near, ∀ q ∈ Delimiter.quotes, c ∉ q.opener) :
    closerAfter d depth 0 col (bare near ++ far) = closerAfter d depth 0 (col + near.length) far := by
  induction near generalizing col with
  | nil => rfl
  | cons c near ih =>
    obtain ⟨hopener, hcloser⟩ := Lexeme.isBracket_eq_false.mp (h c List.mem_cons_self)
    have hrest := ih (col + 1) (fun x hx => h x (List.mem_cons_of_mem _ hx))
      fun x hx => hquote x (List.mem_cons_of_mem _ hx)
    rw [List.length_cons, Nat.add_comm near.length, ← Nat.add_assoc, ← hrest,
      show bare (c :: near) ++ far = ⟨c, false⟩ :: (bare near ++ far) from rfl, closerAfter.eq_def]
    have hspan := quotedSpan?_eq_none (g := ⟨c, false⟩) (bare near ++ far) (hquote c List.mem_cons_self)
    simp [hspan, beginsAt_closer hd, beginsAt_opener hd, hopener, hcloser]

/-- At a closer that nothing has to be balanced before. -/
theorem closerAfter_of_beginsAt {d : Delimiter} (hd : d.kind = .structural) {col : Nat} {gs : List Glyph}
    (h : Token.beginsAt d.closer gs) : closerAfter d 0 0 col gs = .hit (col + d.closer.length) := by
  cases gs with
  | nil => cases h
  | cons g rest =>
    have hcloser := h
    rw [beginsAt_closer hd, Bool.and_eq_true, decide_eq_true_iff, Delimiter.ofCloser?_eq_some] at hcloser
    have hapart : ∀ d ∈ Delimiter.brackets, ∀ q ∈ Delimiter.quotes, ¬ d.closer ⊆ q.opener := by decide
    have hquote : ∀ q ∈ Delimiter.quotes, g.char ∉ q.opener := by
      intro q hq hmem
      apply hapart d (Delimiter.mem_brackets_iff.mpr hd) q hq
      rw [hcloser.2.2]
      exact List.cons_subset.mpr ⟨hmem, List.nil_subset _⟩
    rw [closerAfter.eq_def]
    simp [quotedSpan?_eq_none rest hquote, h]

/-- A complete literal is passed over as one. -/
theorem closerAfter_literal {content rest : List Char} (d : Delimiter) (depth col : Nat)
    (hc : '"' ∉ content) (hr : rest.head? ≠ some '"') :
    closerAfter d depth 0 col (bare ('"' :: (content ++ '"' :: rest))) =
      closerAfter d depth 0 (col + (content.length + 2)) (bare rest) := by
  have hspan := quotedSpan?_literal hc hr
  have hsplit : bare (content ++ '"' :: rest) = bare (content ++ ['"']) ++ bare rest := by
    simp [bare]
  have hlen : content.length + 2 - 1 = (bare (content ++ ['"'])).length := by simp [bare]
  rw [show bare ('"' :: (content ++ '"' :: rest)) = ⟨'"', false⟩ :: bare (content ++ '"' :: rest) from rfl]
    at hspan ⊢
  rw [closerAfter.eq_def]
  simp only [hspan]
  rw [hlen, hsplit, closerAfter_skip]
  simp only [bare, List.length_map, List.length_append, List.length_singleton]
  congr 1
  omega

/-- The walk to the right over a tidy line is the search among its brackets. -/
theorem closerAfter_line {d : Delimiter} (hd : d.kind = .structural) {line : List Lexeme}
    (row depth col : Nat) (h : Lexeme.Tidy line) :
    (closerAfter d depth 0 col (bare (Lexeme.render line))).map (Position.mk row) =
      (Mark.unopened d depth (Lexeme.marks row col line)).map Position.next := by
  induction line generalizing depth col with
  | nil => rfl
  | cons x line ih =>
    have htail : Lexeme.Tidy line := Lexeme.Tidy.right (a := [x]) h
    rw [Lexeme.marks, Mark.unopened_append, Walk.map_andThen]
    cases x with
    | char c =>
      have hc : c ∉ reserved := h.plain (.char c) (by simp) c (by simp [Lexeme.content])
      rw [show Lexeme.render (.char c :: line) = c :: Lexeme.render line from rfl,
        show bare (c :: Lexeme.render line) = ⟨c, false⟩ :: bare (Lexeme.render line) from rfl,
        closerAfter_glyph hd row depth col _ (not_mem_quote hc)]
      exact congrArg _ (funext fun k => ih k (col + 1) htail)
    | literal content =>
      have htext : Lexeme.render (.literal content :: line) =
          '"' :: (content ++ '"' :: Lexeme.render line) := by
        simp [Lexeme.render, Lexeme.text]
      have hwidth : (Lexeme.literal content).text.length = content.length + 2 := by simp [Lexeme.text]
      rw [htext, closerAfter_literal d depth col (h.quote_not_mem (by simp)) h.head?_ne, hwidth,
        ih _ _ htail]
      rfl

end Enclosure

end TabKey
