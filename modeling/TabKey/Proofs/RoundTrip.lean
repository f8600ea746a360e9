import TabKey.Proofs.Caret
import TabKey.Proofs.Enclosure.LineWalk
import TabKey.Proofs.Enclosure.Sound
import TabKey.Proofs.Mask

/-! Into a pair and out again. The pair ahead and the pair around the caret behind its opener are the same, unless the
opener is a quote that has a partner further left. -/
namespace TabKey

namespace Enclosure
variable {doc : Document} {window row col : Nat} {d : Delimiter}

/-- The glyphs up to the end of a one-character token, nearest first. -/
private theorem take_succ_glyphs {cs : List Char} {c : Char} (h : Token.Stands cs col [c]) :
    ((Text.glyphs cs).take (col + 1)).reverse = ⟨c, false⟩ :: ((Text.glyphs cs).take col).reverse := by
  obtain ⟨⟨rest, hrest⟩, hescaped⟩ := h
  have hchar : cs[col]? = some c := by
    rw [← List.head?_drop, ← hrest]
    rfl
  rw [List.take_add_one, Text.getElem?_glyphs, hchar, hescaped]
  simp

/-- Right behind an opening bracket the caret is inside its pair, whatever comes before. -/
theorem opener?_of_bracket (hd : d.kind = .structural) (h : Token.Stands (doc.line row) col d.opener) :
    opener? doc window ⟨row, col + d.opener.length⟩ = some (d, ⟨row, col⟩) := by
  obtain ⟨c, hc⟩ := List.length_eq_one_iff.mp (Delimiter.length_of_structural hd).1
  have hopener : Delimiter.ofOpener? c = some d := Delimiter.ofOpener?_eq_some.mpr ⟨hd, hc⟩
  have hapart : ∀ d' ∈ Delimiter.brackets, ∀ q ∈ Delimiter.quotes, ¬ d'.opener ⊆ q.opener := by decide
  have hquote : ∀ q ∈ Delimiter.quotes, c ∉ q.opener := by
    intro q hq hmem
    apply hapart d (List.mem_of_find?_eq_some hopener) q hq
    rw [hc]
    exact List.cons_subset.mpr ⟨hmem, List.nil_subset _⟩
  have hlen := h.length_le d.opener_ne_nil
  rw [hc] at h hlen ⊢
  rw [List.length_singleton] at hlen ⊢
  have hbefore : ((Text.glyphs (doc.line row)).take col).reverse.length = col := by
    rw [List.length_reverse, List.length_take, Text.length_glyphs]
    omega
  simp only [opener?, Document.glyphs, take_succ_glyphs h, openerBefore, if_true,
    Token.quoteBefore?_eq_none (g := ⟨c, false⟩) _ hquote, Bool.false_eq_true, if_false, hopener, hbefore]

/-- Behind a quote the walk to the left stops at it, or at a longer one that ends with it, or goes on before a
partner that stands further left on the line. -/
theorem opener?_of_quote (hd : d ∈ Delimiter.quotes) (h : Token.Stands (doc.line row) col d.opener) :
    (∃ d' opened, opener? doc window ⟨row, col + d.opener.length⟩ = some (d', opened) ∧ d.closer <+: d'.closer) ∨
      ∃ partner < col, Token.Stands (doc.line row) partner d.opener ∧
        ∀ d' opened, opener? doc window ⟨row, col + d.opener.length⟩ = some (d', opened) →
          (⟨opened.row, opened.col + d'.opener.length⟩ : Position) ≤ ⟨row, partner⟩ := by
  have hlen := h.length_le d.opener_ne_nil
  obtain ⟨q, hq, hopener, hcloser⟩ := Token.exists_quoteBefore? hd (h.endsAt d.opener_ne_nil)
  have hwalk := openerBefore_take_of_quote 0 hq hlen
  cases hpartner : Token.rfind? (doc.line row) (col + d.opener.length - q.opener.length) q.opener with
  | none =>
    rw [hpartner] at hwalk
    refine .inl ⟨q, ⟨row, col + d.opener.length - q.opener.length⟩, ?_, hcloser⟩
    simp only [opener?, Document.glyphs, hwalk]
  | some partner =>
    rw [hpartner] at hwalk
    have hgo : opener? doc window ⟨row, col + d.opener.length⟩ = opener? doc window ⟨row, partner⟩ := by
      simp only [opener?, Document.glyphs, hwalk]
    obtain ⟨hstands, hroom⟩ := Token.rfind?_eq_some hpartner
    have hpos := List.length_pos_iff.mpr q.opener_ne_nil
    have hshorter := hopener.length_le
    refine .inr ⟨partner, by omega, hstands.of_prefix hopener, fun d' opened hfound => ?_⟩
    rw [hgo] at hfound
    rcases (opener?_eq_some hfound).2.1 with habove | ⟨hrow, hle⟩
    · exact .inl habove
    · exact .inr ⟨hrow, hle.trans (Nat.min_le_left _ _)⟩

/-- The end of a pair whose closer begins with the token never lies before the end of the first such token. -/
theorem le_of_closer? {token : List Char} {closed : Position} {first : Nat}
    (hclosed : closer? doc d window ⟨row, col⟩ = some closed) (htoken : token <+: d.closer) (hne : token ≠ [])
    (hcol : col ≤ (doc.line row).length) (hfirst : Token.find? (doc.line row) col token = some first) :
    (⟨row, first + token.length⟩ : Position) ≤ closed := by
  obtain ⟨⟨start, hstop, hstands, hafter⟩, -⟩ := closer?_eq_some hclosed
  rcases hafter with hbelow | ⟨hrow, hle⟩
  · exact .inl hbelow
  · have hlen := htoken.length_le
    simp only [Document.onLine] at hrow hle
    rw [← hrow] at hstands
    have hplace := Token.find?_le hfirst (hstands.of_prefix htoken) (by omega) hne
    exact .inr ⟨hrow, by simp only; omega⟩

end Enclosure

/-- The quote that opens the pair ahead is taken for a closing one: a like quote stands further left on the row,
and the search to the left goes on before that one and finds the opener of some other pair. -/
structure PairAhead.TakenForClosing (doc : Document) (window row : Nat) (ahead : PairAhead) : Prop where
  quote : ahead.delimiter.kind = .string
  partner : ∃ partner < ahead.column, Token.Stands (doc.line row) partner ahead.delimiter.opener ∧
    ∃ d opened, Enclosure.opener? doc window ⟨row, ahead.inner⟩ = some (d, opened) ∧
      (⟨opened.row, opened.col + d.opener.length⟩ : Position) ≤ ⟨row, partner⟩ ∧
      ¬ ahead.delimiter.closer <+: d.closer

namespace Outcome

/-- A caret that enters a pair and leaves a pair from there comes out behind the first closer of the pair it
entered, unless the quote it went in by is taken for a closing one. The two triggers may have different
settings. -/
theorem closer_le_of_jumpInto_jumpOut {doc : Document} {caret target exit : Position}
    {settings settings' : Settings}
    (hinto : ofTrigger settings (some ⟨doc, .caret caret⟩) = .performed (.jumpInto target))
    (hout : ofTrigger settings' (some ⟨doc, .caret target⟩) = .performed (.jumpOut exit)) :
    ∃ ahead close, PairAhead.find? (doc.line caret.row) caret.col = some ahead ∧
      target = ⟨caret.row, ahead.inner⟩ ∧
      Token.find? (doc.line caret.row) ahead.inner ahead.delimiter.closer = some close ∧
      ((⟨caret.row, close + ahead.delimiter.closer.length⟩ : Position) ≤ exit ∨
        ahead.TakenForClosing doc (min settings'.searchLines 50) caret.row) := by
  obtain ⟨ahead, hahead, rfl⟩ := inner_of_jumpInto hinto
  obtain ⟨hopener, close, hclose⟩ := PairAhead.find?_eq_some hahead
  obtain ⟨⟨opened, closed, _⟩, he, rfl⟩ := closed_of_jumpOut hout
  refine ⟨ahead, close, hahead, rfl, hclose, ?_⟩
  have hstands := (Token.find?_eq_some hopener).2
  have hinner : ahead.inner ≤ (doc.line caret.row).length := hstands.length_le ahead.delimiter.opener_ne_nil
  obtain ⟨d, hfound, hclosed, -⟩ := Enclosure.find?_eq_some he
  by_cases hprefix : ahead.delimiter.closer <+: d.closer
  · exact .inl (Enclosure.le_of_closer? hclosed hprefix ahead.delimiter.closer_ne_nil hinner hclose)
  · right
    cases hkind : ahead.delimiter.kind with
    | structural =>
      cases hfound.symm.trans (Enclosure.opener?_of_bracket hkind hstands)
      exact absurd List.prefix_rfl hprefix
    | string =>
      have hquote : ahead.delimiter ∈ Delimiter.quotes := by
        revert hkind
        cases ahead.delimiter <;> decide
      rcases Enclosure.opener?_of_quote hquote hstands with
        ⟨d', opened', hsame, hsuffix⟩ | ⟨partner, hlt, hpartner, hbefore⟩
      · cases hfound.symm.trans hsame
        exact absurd hsuffix hprefix
      · exact ⟨hkind, partner, hlt, hpartner, d, opened, hfound, hbefore d opened hfound, hprefix⟩

/-- Between two literals: the second one is entered by a quote that has partners on its left, and left behind its
own end all the same. -/
theorem closer_le_of_jumpInto_jumpOut_twoLiterals :
    let doc : Document := ⟨[['"', 'a', '"', ' ', '"', 'b', '"']]⟩
    let settings' : Settings := { eagerJumpOut := true }
    ofTrigger {} (some ⟨doc, .caret ⟨0, 3⟩⟩) = .performed (.jumpInto ⟨0, 5⟩) ∧
      ofTrigger settings' (some ⟨doc, .caret ⟨0, 5⟩⟩) = .performed (.jumpOut ⟨0, 7⟩) ∧
      ∃ ahead close, PairAhead.find? (doc.line 0) 3 = some ahead ∧ (⟨0, 5⟩ : Position) = ⟨0, ahead.inner⟩ ∧
        Token.find? (doc.line 0) ahead.inner ahead.delimiter.closer = some close ∧
        ((⟨0, close + ahead.delimiter.closer.length⟩ : Position) ≤ ⟨0, 7⟩ ∨
          ahead.TakenForClosing doc (min settings'.searchLines 50) 0) := by
  intro doc settings'
  have hinto : ofTrigger {} (some ⟨doc, .caret ⟨0, 3⟩⟩) = .performed (.jumpInto ⟨0, 5⟩) := by
    rw [ofTrigger_eq_performed, Document.situation_caret]
    decide
  have hout : ofTrigger settings' (some ⟨doc, .caret ⟨0, 5⟩⟩) = .performed (.jumpOut ⟨0, 7⟩) := by
    rw [ofTrigger_eq_performed, Document.situation_caret]
    decide
  exact ⟨hinto, hout, closer_le_of_jumpInto_jumpOut hinto hout⟩

/-- A bracket left open in the literal before makes the second trigger stop within the literal just entered. -/
theorem not_forall_closer_le_of_jumpInto_jumpOut :
    ¬ ∀ (doc : Document) (caret target exit : Position) (settings : Settings) (ahead : PairAhead) (close : Nat),
      ofTrigger settings (some ⟨doc, .caret caret⟩) = .performed (.jumpInto target) →
      ofTrigger settings (some ⟨doc, .caret target⟩) = .performed (.jumpOut exit) →
      PairAhead.find? (doc.line caret.row) caret.col = some ahead →
      Token.find? (doc.line caret.row) ahead.inner ahead.delimiter.closer = some close →
      (⟨caret.row, close⟩ : Position) ≤ exit := by
  intro h
  let doc : Document := ⟨[['"', '(', '"', ' ', '"', ')', 'a', '"']]⟩
  have hinto : ofTrigger {} (some ⟨doc, .caret ⟨0, 3⟩⟩) = .performed (.jumpInto ⟨0, 5⟩) := by
    rw [ofTrigger_eq_performed, Document.situation_caret]
    decide
  have hout : ofTrigger {} (some ⟨doc, .caret ⟨0, 5⟩⟩) = .performed (.jumpOut ⟨0, 6⟩) := by
    rw [ofTrigger_eq_performed, Document.situation_caret]
    decide
  have hle := h doc ⟨0, 3⟩ ⟨0, 5⟩ ⟨0, 6⟩ {} ⟨.double, 4⟩ 7 hinto hout (by decide) (by decide)
  exact absurd hle (by decide)

end Outcome

end TabKey
