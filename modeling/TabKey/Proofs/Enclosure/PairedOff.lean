import Mathlib.Order.Bounds.Basic
import TabKey.Proofs.Enclosure.LineWalk
import TabKey.Proofs.Enclosure.Sound
import TabKey.Proofs.Mask

/-! What lies between a quote found to the left and the caret. The quote is the first of its kind on the row, and what
else of that kind comes before the caret is in spans that the walk passed over. -/
namespace TabKey.Enclosure
open Text (Glyph)

structure QuotedSpan where
  quote : Delimiter
  opened : Nat
  closed : Nat
deriving DecidableEq, Repr

namespace QuotedSpan

def stop (s : QuotedSpan) : Nat := s.closed + s.quote.opener.length

structure Complete (line : List Char) (s : QuotedSpan) : Prop where
  mem_quotes : s.quote ∈ Delimiter.quotes
  opener : Token.Stands line s.opened s.quote.opener
  closer : Token.Stands line s.closed s.quote.opener
  apart : s.opened + s.quote.opener.length ≤ s.closed
  nearest : ∀ col, s.opened < col → col + s.quote.opener.length ≤ s.closed →
    ¬Token.Stands line col s.quote.opener

end QuotedSpan

/-- Between two columns of a row the quotes are paired off: some stretches are complete spans, one after the other, and
outside of them no quote ends. -/
structure PairedOff (line : List Char) (start stop : Nat) (spans : List QuotedSpan) : Prop where
  complete : ∀ s ∈ spans, s.Complete line
  within : ∀ s ∈ spans, start ≤ s.opened ∧ s.stop ≤ stop
  inTurn : spans.Pairwise fun a b => a.stop ≤ b.opened
  passed : ∀ q ∈ Delimiter.quotes, ∀ col, Token.Stands line col q.opener → start < col + q.opener.length →
    col + q.opener.length ≤ stop → ∃ s ∈ spans, s.opened < col + q.opener.length ∧ col + q.opener.length ≤ s.stop

namespace PairedOff
variable {line : List Char} {start stop : Nat} {spans : List QuotedSpan}

theorem nil (line : List Char) (col : Nat) : PairedOff line col col [] where
  complete := nofun
  within := nofun
  inTurn := .nil
  passed := by
    intro q _ place _ hlt hle
    omega

/-- One more column, at which no quote ends. -/
theorem step (h : PairedOff line start stop spans)
    (hnone : ∀ q ∈ Delimiter.quotes, ∀ col, Token.Stands line col q.opener → col + q.opener.length ≠ stop + 1) :
    PairedOff line start (stop + 1) spans where
  complete := h.complete
  within s hs := ⟨(h.within s hs).1, Nat.le_succ_of_le (h.within s hs).2⟩
  inTurn := h.inTurn
  passed q hq col hstands hlt hle := by
    have hne := hnone q hq col hstands
    exact h.passed q hq col hstands hlt (by omega)

/-- One more complete span. -/
theorem span (h : PairedOff line start stop spans) (hle : start ≤ stop) {s : QuotedSpan} (hs : s.Complete line)
    (hopened : s.opened = stop) : PairedOff line start s.stop (spans ++ [s]) where
  complete := List.forall_mem_append.mpr ⟨h.complete, List.forall_mem_singleton.mpr hs⟩
  within := by
    have hapart := hs.apart
    have hstop : stop ≤ s.stop := by
      rw [QuotedSpan.stop]
      omega
    refine List.forall_mem_append.mpr ⟨fun t ht => ⟨(h.within t ht).1, (h.within t ht).2.trans hstop⟩, ?_⟩
    exact List.forall_mem_singleton.mpr ⟨hopened ▸ hle, Nat.le_refl _⟩
  inTurn := by
    refine List.pairwise_append.mpr ⟨h.inTurn, List.pairwise_singleton _ _, fun t ht t' ht' => ?_⟩
    rw [List.mem_singleton.mp ht', hopened]
    exact (h.within t ht).2
  passed q hq col hstands hlt hends := by
    by_cases hbefore : col + q.opener.length ≤ stop
    · obtain ⟨t, ht, hends'⟩ := h.passed q hq col hstands hlt hbefore
      exact ⟨t, List.mem_append_left _ ht, hends'⟩
    · exact ⟨s, by simp, by omega, hends⟩

/-- A quote that begins between the two columns shares a character with a span, also where it goes on past the second
column. -/
theorem exists_span {q : Delimiter} {col : Nat} (h : PairedOff line start stop spans) (hq : q ∈ Delimiter.quotes)
    (hstands : Token.Stands line col q.opener) (hstart : start ≤ col) (hstop : col < stop) :
    ∃ s ∈ spans, s.opened < col + q.opener.length ∧ col < s.stop := by
  have hpos := List.length_pos_iff.mpr q.opener_ne_nil
  by_cases hends : col + q.opener.length ≤ stop
  · obtain ⟨s, hs, hbegin, hend⟩ := h.passed q hq col hstands (by omega) hends
    exact ⟨s, hs, hbegin, by omega⟩
  · -- Three times the same character: the one right before the column is a quote by itself, and ends there.
    obtain ⟨d, hd, c, hc, hshort | hlong⟩ := Delimiter.exists_single hq
    · rw [hshort, List.length_singleton] at hends
      omega
    · have hwidth : q.opener.length = 3 := by rw [hlong]; rfl
      obtain ⟨i, hi⟩ := Nat.exists_eq_add_of_lt hstop
      have hi3 : i < q.opener.length := by omega
      have hprefix : d.opener <+: q.opener.drop i := by
        rw [hc, hlong]
        obtain rfl | rfl | rfl : i = 0 ∨ i = 1 ∨ i = 2 := by omega
        all_goals exact ⟨_, rfl⟩
      have hlast := Token.Stands.of_prefix (hstands.drop q.backslash_not_mem_opener hi3) hprefix
      have hone : d.opener.length = 1 := by rw [hc]; rfl
      obtain ⟨s, hs, hbegin, hend⟩ := h.passed d hd (col + i) hlast (by omega) (by omega)
      exact ⟨s, hs, by omega, by omega⟩

end PairedOff

section
variable {line : List Char} {n depth col : Nat} {q : Delimiter}

/-- Where no quote ends, a walk that will stop at a quote goes on by one glyph. -/
theorem openerBefore_of_cons {g : Glyph} {before : List Glyph} (hnone : Token.quoteBefore? (g :: before) = none)
    (h : openerBefore true depth 0 (g :: before) = .hit (q, col)) (hstring : q.kind = .string) :
    ∃ depth', openerBefore true depth' 0 before = .hit (q, col) := by
  rw [openerBefore, if_pos rfl, hnone] at h
  dsimp only at h
  split at h
  · exact ⟨depth, h⟩
  · split at h
    · next d hd =>
      cases depth with
      | zero =>
        -- A bracket, not a quote.
        obtain ⟨rfl, -⟩ := Prod.mk.inj (Walk.hit.inj h)
        have hkind := (Delimiter.ofOpener?_eq_some.mp hd).1
        rw [hstring] at hkind
        cases hkind
      | succ depth => exact ⟨depth, h⟩
    · split at h
      · exact ⟨depth + 1, h⟩
      · exact ⟨depth, h⟩

/-- From the quote at which the walk stops to where it began all quotes are paired off, and further left there is no
like one. -/
theorem exists_pairedOff (h : openerBefore true depth 0 ((Text.glyphs line).take n).reverse = .hit (q, col))
    (hstring : q.kind = .string) (hn : n ≤ line.length) :
    (∃ spans, PairedOff line (col + q.opener.length) n spans) ∧
      ∀ place, place + q.opener.length ≤ col → ¬Token.Stands line place q.opener := by
  induction n using Nat.strong_induction_on generalizing depth with
  | h n ih =>
    cases hquote : Token.quoteBefore? ((Text.glyphs line).take n).reverse with
    | some q' =>
      obtain ⟨hq', hends⟩ := Token.quoteBefore?_eq_some hquote
      have hwidth := Token.length_le_of_endsAt hends
      rw [List.length_reverse, Text.length_take_glyphs hn] at hwidth
      rw [openerBefore_take_of_quote depth hquote hn] at h
      cases hpartner : Token.rfind? line (n - q'.opener.length) q'.opener with
      | none =>
        rw [hpartner] at h
        obtain ⟨rfl, rfl⟩ := Prod.mk.inj (Walk.hit.inj h)
        refine ⟨⟨[], ?_⟩, fun place hplace hstands => ?_⟩
        · rw [Nat.sub_add_cancel hwidth]
          exact .nil line n
        · obtain ⟨partner, hfound, -⟩ := Token.exists_rfind? hstands hplace q'.opener_ne_nil
          rw [hpartner] at hfound
          cases hfound
      | some partner =>
        rw [hpartner] at h
        have hpos := List.length_pos_iff.mpr q'.opener_ne_nil
        obtain ⟨hopener, hapart⟩ := Token.rfind?_eq_some hpartner
        obtain ⟨⟨spans, hspans⟩, hfirst⟩ := ih partner (by omega) h (by omega)
        have hstart := (stands_of_openerBefore h).2.1
        have hspan : QuotedSpan.Complete line ⟨q', partner, n - q'.opener.length⟩ := by
          refine ⟨hq', hopener, ?_, hapart, fun place hlt hle hstands => ?_⟩
          · exact Token.stands_of_endsAt List.suffix_rfl hends (by simpa [hn] using (Nat.sub_add_cancel hwidth).symm)
          · obtain ⟨last, hlast, hle'⟩ := Token.exists_rfind? hstands hle q'.opener_ne_nil
            rw [hpartner] at hlast
            cases hlast
            exact Nat.not_lt_of_le hle' hlt
        have hpaired := hspans.span (by omega) hspan rfl
        rw [QuotedSpan.stop, Nat.sub_add_cancel hwidth] at hpaired
        exact ⟨⟨_, hpaired⟩, hfirst⟩
    | none =>
      cases n with
      | zero => cases h
      | succ n =>
        have hlt : n < (Text.glyphs line).length := by rwa [Text.length_glyphs]
        have hcons : ((Text.glyphs line).take (n + 1)).reverse =
            (Text.glyphs line)[n] :: ((Text.glyphs line).take n).reverse := by
          rw [List.take_succ_eq_append_getElem hlt, List.reverse_append]
          rfl
        have hnone : ∀ q' ∈ Delimiter.quotes, ∀ place, Token.Stands line place q'.opener →
            place + q'.opener.length ≠ n + 1 := by
          intro q' hq' place hstands hends
          have hquoted := hstands.endsAt q'.opener_ne_nil
          rw [hends] at hquoted
          obtain ⟨found, hfound, -⟩ := Token.exists_quoteBefore? hq' hquoted
          rw [hquote] at hfound
          cases hfound
        rw [hcons] at h hquote
        obtain ⟨depth', h⟩ := openerBefore_of_cons hquote h hstring
        obtain ⟨⟨spans, hspans⟩, hfirst⟩ := ih n (Nat.lt_succ_self n) h (by omega)
        exact ⟨⟨spans, hspans.step hnone⟩, hfirst⟩

end

/-- How a pair of the quote `q` is reported around a caret: it opens at the first one of the row and closes at the first
one from the caret on, and on the left of the caret the quotes between are paired off in `spans`. -/
structure Quoted (doc : Document) (caret : Position) (q : Delimiter) (e : Enclosure) (close : Nat)
    (spans : List QuotedSpan) : Prop where
  mem_quotes : q ∈ Delimiter.quotes
  opened_row : e.opened.row = caret.row
  opener : Token.Stands (doc.line caret.row) e.opened.col q.opener
  first : ∀ col, col + q.opener.length ≤ e.opened.col → ¬Token.Stands (doc.line caret.row) col q.opener
  closed : e.closed = ⟨caret.row, close + q.opener.length⟩
  next : IsLeast {col | (doc.onLine caret).col ≤ col ∧ Token.Stands (doc.line caret.row) col q.opener} close
  paired : PairedOff (doc.line caret.row) (e.opened.col + q.opener.length) (doc.onLine caret).col spans
  between : ∀ col, e.opened.col + q.opener.length ≤ col → col + q.opener.length ≤ close →
    Token.Stands (doc.line caret.row) col q.opener →
    ∃ s ∈ spans, s.opened < col + q.opener.length ∧ col < s.stop

section
variable {doc : Document} {window : Nat} {caret p : Position} {q : Delimiter} {e : Enclosure}

/-- A quote is found on the caret's own row. -/
theorem openerBefore_of_opener? (h : opener? doc window caret = some (q, p)) (hstring : q.kind = .string) :
    openerBefore true 0 0 ((Text.glyphs (doc.line caret.row)).take (doc.onLine caret).col).reverse =
      .hit (q, p.col) := by
  have htake : (Text.glyphs (doc.line caret.row)).take (doc.onLine caret).col =
      (doc.glyphs caret.row).take caret.col := by
    rw [Document.onLine, ← Text.length_glyphs, ← List.take_eq_take_min, Document.glyphs]
  rw [htake]
  rw [opener?] at h
  split at h
  · next d col hwalk =>
    cases h
    exact hwalk
  · have hkind := (openerAbove_eq_some h).2.2.2
    rw [hstring] at hkind
    cases hkind

theorem isLeast_of_closer? (h : closer? doc q window caret = some p) (hstring : q.kind = .string) :
    ∃ close, p = ⟨caret.row, close + q.opener.length⟩ ∧
      IsLeast {col | (doc.onLine caret).col ≤ col ∧ Token.Stands (doc.line caret.row) col q.opener} close := by
  simp only [closer?, hstring, Delimiter.closer_eq_opener hstring] at h
  obtain ⟨n, hn, rfl⟩ := Option.map_eq_some_iff.mp h
  have hfound : Token.find? (doc.line caret.row) (doc.onLine caret).col q.opener =
      some ((doc.onLine caret).col + n) := Option.map_eq_some_iff.mpr ⟨n, hn, rfl⟩
  refine ⟨(doc.onLine caret).col + n, rfl, Token.find?_eq_some hfound, ?_⟩
  rintro col ⟨hle, hstands⟩
  exact Token.find?_le hfound hstands hle q.opener_ne_nil

/-- A reported quote is the first of its kind on the row. All that is between it and the closing one is in complete
spans that lie one after the other before the caret. -/
theorem exists_quoted_of_find? (h : find? doc window caret = some e) (hkind : e.kind = .string) :
    ∃ q close spans, opener? doc (min window 50) caret = some (q, e.opened) ∧ Quoted doc caret q e close spans := by
  obtain ⟨q, hopener, hcloser, hsame⟩ := find?_eq_some h
  have hstring : q.kind = .string := hsame.symm.trans hkind
  have hq := Delimiter.mem_quotes_iff.mpr hstring
  obtain ⟨hstands, -, -, hrow⟩ := opener?_eq_some hopener
  have hrow := hrow hstring
  rw [hrow] at hstands
  have hwalk := openerBefore_of_opener? hopener hstring
  obtain ⟨⟨spans, hspans⟩, hfirst⟩ := exists_pairedOff hwalk hstring (Nat.min_le_right _ _)
  obtain ⟨close, hclosed, hnext⟩ := isLeast_of_closer? hcloser hstring
  refine ⟨q, close, spans, hopener, hq, hrow, hstands, hfirst, hclosed, hnext, hspans, ?_⟩
  intro col hstart hstop hstands'
  refine hspans.exists_span hq hstands' hstart (Nat.lt_of_not_le fun hafter => ?_)
  -- From the caret on there is none before the closing one.
  have hle := hnext.2 ⟨hafter, hstands'⟩
  have hpos := List.length_pos_iff.mpr q.opener_ne_nil
  omega

/-- A caret inside the second of two literals: the opener is that of the first, and the space between them is the
span. -/
theorem exists_quoted_secondLiteral :
    find? ⟨[['"', 'a', '"', ' ', '"', 'b', '"']]⟩ 50 ⟨0, 5⟩ = some ⟨⟨0, 0⟩, ⟨0, 7⟩, .string⟩ ∧
      ∃ q close spans, opener? ⟨[['"', 'a', '"', ' ', '"', 'b', '"']]⟩ (min 50 50) ⟨0, 5⟩ = some (q, ⟨0, 0⟩) ∧
        Quoted ⟨[['"', 'a', '"', ' ', '"', 'b', '"']]⟩ ⟨0, 5⟩ q ⟨⟨0, 0⟩, ⟨0, 7⟩, .string⟩ close spans := by
  have hfind : find? ⟨[['"', 'a', '"', ' ', '"', 'b', '"']]⟩ 50 ⟨0, 5⟩ = some ⟨⟨0, 0⟩, ⟨0, 7⟩, .string⟩ := by decide
  exact ⟨hfind, exists_quoted_of_find? hfind rfl⟩

/-- Between the two reported quotes there may be like ones. -/
theorem not_forall_find?_nearest :
    ¬∀ (doc : Document) (window : Nat) (caret : Position) (e : Enclosure) (q : Delimiter),
      find? doc window caret = some e → e.kind = .string →
      opener? doc (min window maxWindow) caret = some (q, e.opened) →
      ∀ col, e.opened.col + q.opener.length ≤ col → col + q.opener.length + q.opener.length ≤ e.closed.col →
        ¬Token.Stands (doc.line caret.row) col q.opener := by
  intro h
  have hstands : Token.Stands ['"', 'a', '"', ' ', '"', 'b', '"'] 2 ['"'] :=
    (Token.standsAt_iff.mp (by decide)).2
  exact h ⟨[['"', 'a', '"', ' ', '"', 'b', '"']]⟩ 50 ⟨0, 5⟩ ⟨⟨0, 0⟩, ⟨0, 7⟩, .string⟩ .double (by decide) rfl (by decide) 2
    (by decide) (by decide) hstands

end

end TabKey.Enclosure
