import TabKey.Enclosure
import TabKey.Proofs.Token

/-! Whatever pair the search reports, its two tokens stand unescaped in the text, on either side of the caret and
within the window. Nothing is assumed about the text or the caret. -/
namespace TabKey
open Text (Glyph)

/-- The caret with its column brought back to the end of its line. -/
def Document.onLine (doc : Document) (p : Position) : Position :=
  ⟨p.row, min p.col (doc.line p.row).length⟩

namespace Enclosure

structure Genuine (doc : Document) (window : Nat) (caret : Position) (d : Delimiter)
    (e : Enclosure) : Prop where
  kind : d.kind = e.kind
  opener : Token.Stands (doc.line e.opened.row) e.opened.col d.opener
  /-- The opening token ends at or before the caret. -/
  opener_before : (⟨e.opened.row, e.opened.col + d.opener.length⟩ : Position) ≤ doc.onLine caret
  /-- The closing token ends where the report says and starts at or after the caret. -/
  closer : ∃ start, e.closed.col = start + d.closer.length ∧
    Token.Stands (doc.line e.closed.row) start d.closer ∧ doc.onLine caret ≤ ⟨e.closed.row, start⟩
  opened_lt : e.opened < caret
  lt_closed : caret < e.closed
  opened_row : caret.row - window ≤ e.opened.row
  closed_row : e.closed.row ≤ min (caret.row + window) (doc.lineCount - 1)
  closed_col : e.closed.col ≤ (doc.line e.closed.row).length
  string_row : e.kind = .string → e.opened.row = caret.row ∧ e.closed.row = caret.row

theorem row_lt_of_stands {doc : Document} {row col : Nat} {token : List Char}
    (h : Token.Stands (doc.line row) col token) (hne : token ≠ []) : row < doc.lineCount := by
  apply Nat.lt_of_not_le
  intro hrow
  have hlen := h.length_le hne
  have hpos := List.length_pos_iff.mpr hne
  rw [Document.line_eq_nil_of_le hrow, List.length_nil] at hlen
  omega

/-- A walk to the left hits a token that ends right before some place it passed. -/
theorem openerBefore_hit {quoted : Bool} {depth skip col : Nat} {before : List Glyph} {d : Delimiter}
    (h : openerBefore quoted depth skip before = .hit (d, col)) :
    ∃ far, far <:+ before ∧ Token.endsAt d.opener far ∧ far.length = col + d.opener.length ∧
      (d.kind = .string → quoted = true) := by
  fun_induction openerBefore quoted depth skip before with
  | case1 => cases h
  | case2 depth skip g before ih | case3 depth g before q _ partner _ ih
  | case5 depth g before _ _ ih | case7 g before _ _ _ _ depth ih
  | case8 depth g before _ _ _ _ ih | case9 depth g before _ _ _ _ ih =>
    obtain ⟨far, hfar, hrest⟩ := ih h
    exact ⟨far, hfar.trans (List.suffix_cons g before), hrest⟩
  | case4 depth g before q hq start hlast =>
    obtain ⟨rfl, rfl⟩ := Prod.mk.inj (Walk.hit.inj h)
    obtain ⟨hquoted, hq⟩ := Option.ite_none_right_eq_some.mp hq
    obtain ⟨-, hends⟩ := Token.quoteBefore?_eq_some hq
    have hwidth := Token.length_le_of_endsAt hends
    exact ⟨_, List.suffix_rfl, hends, (Nat.sub_add_cancel hwidth).symm, fun _ => hquoted⟩
  | case6 g before _ he d' hd =>
    cases h
    obtain ⟨hk, hc⟩ := Delimiter.ofOpener?_eq_some.mp hd
    refine ⟨_, List.suffix_rfl, ?_, by simp [hc], fun hs => absurd (hk.symm.trans hs) (by decide)⟩
    rw [hc]
    exact Token.beginsAt_cons_iff.mpr ⟨by simp, by simpa using he, by simp⟩

/-- What a walk to the left over the first `n` glyphs of a line hits stands on that line and ends
at or before column `n`. -/
theorem stands_of_openerBefore {quoted : Bool} {depth n col : Nat} {line : List Char} {d : Delimiter}
    (h : openerBefore quoted depth 0 ((Text.glyphs line).take n).reverse = .hit (d, col)) :
    Token.Stands line col d.opener ∧ col + d.opener.length ≤ min n line.length ∧
      (d.kind = .string → quoted = true) := by
  obtain ⟨far, hfar, hends, hlen, hstring⟩ := openerBefore_hit h
  have hle := hfar.length_le
  rw [List.length_reverse, List.length_take, Text.length_glyphs, hlen] at hle
  exact ⟨Token.stands_of_endsAt hfar hends hlen, hle, hstring⟩

theorem openerAbove_eq_some {doc : Document} {window depth row : Nat} {d : Delimiter} {p : Position}
    (h : openerAbove doc window depth row = some (d, p)) :
    Token.Stands (doc.line p.row) p.col d.opener ∧ p.row < row ∧ row ≤ p.row + window ∧
      d.kind = .structural := by
  fun_induction openerAbove doc window depth row with
  | case1 window depth row d' col hwalk =>
    cases h
    have hwalk' : openerBefore false depth 0
        ((Text.glyphs (doc.line row)).take (doc.line row).length).reverse = .hit (d, col) := by
      rw [List.take_of_length_le (by simp)]
      exact hwalk
    obtain ⟨hstands, -, hstring⟩ := stands_of_openerBefore hwalk'
    refine ⟨hstands, by simp, by simp only; omega, ?_⟩
    cases hk : d.kind with
    | structural => rfl
    | string => cases hstring hk
  | case2 window depth row depth' _ ih =>
    obtain ⟨hstands, hlt, hle, hk⟩ := ih h
    exact ⟨hstands, by omega, by omega, hk⟩
  | case3 | case4 => cases h

/-- The opener stands at or before the caret, in the window, and on the caret's row if a quote. -/
theorem opener?_eq_some {doc : Document} {window : Nat} {caret p : Position} {d : Delimiter}
    (h : opener? doc window caret = some (d, p)) :
    Token.Stands (doc.line p.row) p.col d.opener ∧
      (⟨p.row, p.col + d.opener.length⟩ : Position) ≤ doc.onLine caret ∧
      caret.row ≤ p.row + window ∧ (d.kind = .string → p.row = caret.row) := by
  unfold opener? at h
  split at h
  · rename_i d' col hwalk
    cases h
    obtain ⟨hstands, hle, -⟩ := stands_of_openerBefore hwalk
    exact ⟨hstands, .inr ⟨rfl, hle⟩, Nat.le_add_right _ _, fun _ => rfl⟩
  · obtain ⟨hstands, hlt, hle, hk⟩ := openerAbove_eq_some h
    exact ⟨hstands, .inl hlt, hle, fun hs => absurd (hk.symm.trans hs) (by decide)⟩

theorem closerAfter_hit {d : Delimiter} {depth skip col stop : Nat} {gs : List Glyph}
    (h : closerAfter d depth skip col gs = .hit stop) :
    ∃ n, Token.beginsAt d.closer (gs.drop n) ∧ stop = col + n + d.closer.length := by
  fun_induction closerAfter d depth skip col gs with
  | case1 => cases h
  | case2 _ _ col g rest ih | case3 _ col g rest _ _ ih | case5 col g rest _ _ _ ih
  | case6 _ col g rest _ _ _ ih | case7 _ col g rest _ _ _ ih =>
    obtain ⟨n, hn, hstop⟩ := ih h
    exact ⟨n + 1, hn, by omega⟩
  | case4 col g rest _ hcloser =>
    cases h
    exact ⟨0, hcloser, rfl⟩

theorem closerBelow_eq_some {doc : Document} {d : Delimiter} {window depth row : Nat} {p : Position}
    (h : closerBelow doc d window depth row = some p) :
    row ≤ p.row ∧ p.row < row + window ∧
      ∃ start, p.col = start + d.closer.length ∧ Token.Stands (doc.line p.row) start d.closer := by
  fun_induction closerBelow doc d window depth row with
  | case1 => cases h
  | case2 window depth row col hwalk =>
    cases h
    obtain ⟨n, hn, hcol⟩ := closerAfter_hit hwalk
    exact ⟨Nat.le_refl _, by simp only; omega, n, by simp only; omega, Token.stands_of_beginsAt hn⟩
  | case3 window depth row depth' _ ih =>
    obtain ⟨hle, hlt, hstart⟩ := ih h
    exact ⟨by omega, by omega, hstart⟩

/-- The closer stands at or after the caret, in the window, and on the caret's row if a quote. -/
theorem closer?_eq_some {doc : Document} {d : Delimiter} {window : Nat} {caret p : Position}
    (h : closer? doc d window caret = some p) :
    (∃ start, p.col = start + d.closer.length ∧ Token.Stands (doc.line p.row) start d.closer ∧
      doc.onLine caret ≤ ⟨p.row, start⟩) ∧
    p.row ≤ caret.row + window ∧ (d.kind = .string → p.row = caret.row) := by
  unfold closer? at h
  simp only at h
  split at h
  · obtain ⟨n, hn, rfl⟩ := Option.map_eq_some_iff.mp h
    have hstands := Token.beginsAt_of_first? hn
    rw [List.drop_drop] at hstands
    exact ⟨⟨_, rfl, Token.stands_of_beginsAt hstands, .inr ⟨rfl, Nat.le_add_right _ _⟩⟩,
      Nat.le_add_right _ _, fun _ => rfl⟩
  · rename_i hk
    have hno : d.kind ≠ .string := by rw [hk]; decide
    split at h
    · rename_i col hwalk
      cases h
      obtain ⟨n, hn, rfl⟩ := closerAfter_hit hwalk
      rw [List.drop_drop] at hn
      exact ⟨⟨_, rfl, Token.stands_of_beginsAt hn, .inr ⟨rfl, Nat.le_add_right _ _⟩⟩,
        Nat.le_add_right _ _, fun _ => rfl⟩
    · obtain ⟨hle, hlt, start, hcol, hstands⟩ := closerBelow_eq_some h
      exact ⟨⟨start, hcol, hstands, .inl (by simp only [Document.onLine]; omega)⟩, by omega,
        fun hs => absurd hs hno⟩

theorem find?_eq_some {doc : Document} {window : Nat} {caret : Position} {e : Enclosure}
    (h : find? doc window caret = some e) :
    ∃ d, opener? doc (min window maxWindow) caret = some (d, e.opened) ∧
      closer? doc d (min window maxWindow) caret = some e.closed ∧ e.kind = d.kind := by
  rw [find?, within?] at h
  split at h
  · cases h
  · next d opened hopened =>
    obtain ⟨closed, hclosed, rfl⟩ := Option.map_eq_some_iff.mp h
    exact ⟨d, hopened, hclosed, rfl⟩

/-- Every report is genuine, on any text and for any caret, also one past the end of its line or of
the document. -/
theorem exists_genuine_of_find? {doc : Document} {window : Nat} {caret : Position} {e : Enclosure}
    (h : find? doc window caret = some e) :
    ∃ d ∈ Delimiter.all, Genuine doc (min window 50) caret d e := by
  unfold find? within? at h
  split at h
  · cases h
  · rename_i d opened hopened
    obtain ⟨closed, hclosed, rfl⟩ := Option.map_eq_some_iff.mp h
    obtain ⟨hopener, hbefore, hwindow, hrow⟩ := opener?_eq_some hopened
    obtain ⟨⟨start, hcol, hcloser, hafter⟩, hbelow, hrow'⟩ := closer?_eq_some hclosed
    have hfits := hcloser.length_le d.closer_ne_nil
    have hlast := row_lt_of_stands hcloser d.closer_ne_nil
    have hopos := List.length_pos_iff.mpr d.opener_ne_nil
    have hcpos := List.length_pos_iff.mpr d.closer_ne_nil
    refine ⟨d, d.mem_all, rfl, hopener, hbefore, ⟨start, hcol, hcloser, hafter⟩, ?_, ?_,
      Nat.sub_le_iff_le_add.mpr hwindow, Nat.le_min.mpr ⟨hbelow, Nat.le_sub_one_of_lt hlast⟩,
      by simp only; omega, fun hs => ⟨hrow hs, hrow' hs⟩⟩
    · -- The token has a width, so its start lies strictly before the caret.
      rcases hbefore with hlt | ⟨heq, hle⟩
      · exact .inl hlt
      · exact .inr ⟨heq, by simp only [Document.onLine] at hle ⊢; omega⟩
    · -- On the caret's own row a closer leaves no room for a column past the end.
      rcases hafter with hlt | ⟨heq, hle⟩
      · exact .inl hlt
      · simp only [Document.onLine] at heq hle
        rw [heq] at hle
        exact .inr ⟨heq, by simp only; omega⟩

/-- A caret past the end of its line, inside a bracket that closes on the next row. -/
theorem exists_genuine_past_line_end :
    find? ⟨[['('], [')']]⟩ 80 ⟨0, 7⟩ = some ⟨⟨0, 0⟩, ⟨1, 1⟩, .structural⟩ ∧
      ∃ d ∈ Delimiter.all,
        Genuine ⟨[['('], [')']]⟩ (min 80 50) ⟨0, 7⟩ d ⟨⟨0, 0⟩, ⟨1, 1⟩, .structural⟩ :=
  ⟨by decide, exists_genuine_of_find? (by decide)⟩

end Enclosure

end TabKey
