import TabKey.Enclosure
import TabKey.Proofs.Mask

namespace TabKey.Enclosure
open Text (Glyph Marking Alike)

theorem openerBefore_mask (quoted : Bool) (depth skip : Nat) {before : List Glyph}
    (h : Marking before.reverse) :
    openerBefore quoted depth skip (before.map Glyph.mask) = openerBefore quoted depth skip before := by
  induction before generalizing depth skip with
  | nil => rfl
  | cons g before ih =>
    have ih := fun depth skip => ih depth skip h.of_reverse_cons
    cases skip with
    | succ skip => exact ih depth skip
    | zero =>
      have hquote := Token.quoteBefore?_mask h
      rw [List.map_cons] at hquote ⊢
      rw [openerBefore, openerBefore, hquote]
      cases if quoted = true then Token.quoteBefore? (g :: before) else none with
      | some q =>
        have hlast := Token.last?_mask q.backslash_not_mem_opener (h.drop_reverse q.opener.length)
        rw [List.map_drop, List.map_cons] at hlast
        simp only [hlast, List.length_map, List.length_cons, ih]
      | none =>
        cases hescaped : g.escaped with
        | true => simp only [Glyph.escaped_mask, hescaped, if_true, ih]
        | false => simp only [Glyph.mask_of_not_escaped hescaped, hescaped, List.length_map, ih]

theorem quotedSpan?_mask {gs : List Glyph} (h : Marking gs) :
    quotedSpan? (gs.map Glyph.mask) = quotedSpan? gs := by
  rw [quotedSpan?, Token.quoteAt?_mask h, quotedSpan?]
  cases Token.quoteAt? gs with
  | none => rfl
  | some q =>
    simp only [← List.map_drop, Token.first?_mask q.backslash_not_mem_opener (h.drop q.opener.length)]

theorem closerAfter_mask (d : Delimiter) (depth skip col : Nat) {gs : List Glyph} (h : Marking gs) :
    closerAfter d depth skip col (gs.map Glyph.mask) = closerAfter d depth skip col gs := by
  induction gs generalizing depth skip col with
  | nil => rfl
  | cons g rest ih =>
    have ih := fun depth skip col => ih depth skip col h.of_cons
    cases skip with
    | succ skip => exact ih depth skip (col + 1)
    | zero =>
      have hspan := quotedSpan?_mask h
      have hcloser := Token.beginsAt_mask d.backslash_not_mem_closer h
      have hopener := Token.beginsAt_mask d.backslash_not_mem_opener h
      rw [List.map_cons] at hspan hcloser hopener ⊢
      rw [closerAfter.eq_def, closerAfter.eq_def d depth 0 col (g :: rest)]
      simp only [hspan, hcloser, hopener, ih]

section
variable {doc doc' : Document} {caret : Position}

/-- Of the rows above only what the walk to the left makes of each counts. -/
theorem openerAbove_of_walks {window depth row : Nat}
    (h : ∀ r k, row - window ≤ r → r < row → openerBefore false k 0 (doc.glyphs r).reverse =
      openerBefore false k 0 (doc'.glyphs r).reverse) :
    openerAbove doc window depth row = openerAbove doc' window depth row := by
  induction window generalizing depth row with
  | zero => rfl
  | succ window ih =>
    cases row with
    | zero => rfl
    | succ row =>
      rw [openerAbove, h row depth (by omega) (by omega), openerAbove]
      cases openerBefore false depth 0 (doc'.glyphs row).reverse with
      | hit found => rfl
      | past k => exact ih fun r k hle hlt => h r k (by omega) (by omega)

theorem openerAbove_congr {window depth row : Nat}
    (h : ∀ r, row - window ≤ r → r < row → Alike (doc.line r) (doc'.line r)) :
    openerAbove doc window depth row = openerAbove doc' window depth row := by
  apply openerAbove_of_walks
  intro r k hle hlt
  have hrow := h r hle hlt
  have hwalk := hrow.take_congr (fun _ => openerBefore_mask false k 0) (doc.line r).length
  rwa [List.take_of_length_le (by simp), List.take_of_length_le (by simp [hrow.length_eq])] at hwalk

/-- Of the rows below only what the walk to the right makes of each counts. -/
theorem closerBelow_of_walks {d : Delimiter} {window depth row : Nat}
    (h : ∀ r k, row ≤ r → r < row + window →
      closerAfter d k 0 0 (doc.glyphs r) = closerAfter d k 0 0 (doc'.glyphs r)) :
    closerBelow doc d window depth row = closerBelow doc' d window depth row := by
  induction window generalizing depth row with
  | zero => rfl
  | succ window ih =>
    rw [closerBelow, h row depth (Nat.le_refl _) (by omega), closerBelow]
    cases closerAfter d depth 0 0 (doc'.glyphs row) with
    | hit col => rfl
    | past k => exact ih fun r k hle hlt => h r k (by omega) (by omega)

theorem closerBelow_congr {d : Delimiter} {window depth row : Nat}
    (h : ∀ r, row ≤ r → r < row + window → Alike (doc.line r) (doc'.line r)) :
    closerBelow doc d window depth row = closerBelow doc' d window depth row :=
  closerBelow_of_walks fun r k hle hlt =>
    (h r hle hlt).drop_congr (fun _ => closerAfter_mask d k 0 0) 0

/-- Past the last row there is no closer: the walk down may stop there. -/
theorem closerBelow_lineCount (doc : Document) (d : Delimiter) (window depth row : Nat) :
    closerBelow doc d window depth row = closerBelow doc d (min window (doc.lineCount - row)) depth row := by
  induction window generalizing depth row with
  | zero => rw [Nat.zero_min]
  | succ window ih =>
    by_cases hrow : row < doc.lineCount
    · have hmin : min (window + 1) (doc.lineCount - row) = min window (doc.lineCount - (row + 1)) + 1 := by
        omega
      rw [hmin, closerBelow, closerBelow]
      cases closerAfter d depth 0 0 (doc.glyphs row) with
      | hit col => rfl
      | past k => exact ih k (row + 1)
    · have hle : doc.lineCount ≤ row := Nat.le_of_not_lt hrow
      have hempty : doc.glyphs row = [] := by
        rw [Document.glyphs, Document.line_eq_nil_of_le hle]
        rfl
      have hnext := ih depth (row + 1)
      rw [Nat.sub_eq_zero_of_le (Nat.le_succ_of_le hle), Nat.min_zero] at hnext
      have hstep : closerBelow doc d (window + 1) depth row = closerBelow doc d window depth (row + 1) := by
        rw [closerBelow, hempty]
        rfl
      rw [Nat.sub_eq_zero_of_le hle, Nat.min_zero, hstep, hnext]
      rfl

theorem opener?_congr {window : Nat}
    (h : ∀ r, caret.row - window ≤ r → r ≤ caret.row → Alike (doc.line r) (doc'.line r)) :
    opener? doc window caret = opener? doc' window caret := by
  have hwalk : openerBefore true 0 0 ((doc.glyphs caret.row).take caret.col).reverse =
      openerBefore true 0 0 ((doc'.glyphs caret.row).take caret.col).reverse :=
    (h caret.row (Nat.sub_le _ _) (Nat.le_refl _)).take_congr (fun _ => openerBefore_mask true 0 0) caret.col
  rw [opener?, hwalk, opener?]
  cases openerBefore true 0 0 ((doc'.glyphs caret.row).take caret.col).reverse with
  | hit found => rfl
  | past k => exact openerAbove_congr fun r hle hlt => h r hle (Nat.le_of_lt hlt)

theorem closer?_congr {d : Delimiter} {window : Nat}
    (h : ∀ r, caret.row ≤ r → r ≤ caret.row + window → Alike (doc.line r) (doc'.line r)) :
    closer? doc d window caret = closer? doc' d window caret := by
  have hcaret : Alike (doc.line caret.row) (doc'.line caret.row) :=
    h caret.row (Nat.le_refl _) (Nat.le_add_right _ _)
  rw [closer?, closer?, hcaret.length_eq]
  generalize min caret.col (doc'.line caret.row).length = col
  have hfirst : Token.first? d.closer ((doc.glyphs caret.row).drop col) =
      Token.first? d.closer ((doc'.glyphs caret.row).drop col) :=
    hcaret.drop_congr (fun _ => Token.first?_mask d.backslash_not_mem_closer) col
  have hwalk : closerAfter d 0 0 col ((doc.glyphs caret.row).drop col) =
      closerAfter d 0 0 col ((doc'.glyphs caret.row).drop col) :=
    hcaret.drop_congr (fun _ => closerAfter_mask d 0 0 col) col
  simp only [hfirst, hwalk]
  cases d.kind with
  | string => rfl
  | structural =>
    cases closerAfter d 0 0 col ((doc'.glyphs caret.row).drop col) with
    | hit col => rfl
    | past k => exact closerBelow_congr fun r hle hlt => h r (by omega) (by omega)

/-- Only the rows of the window count, and of them only what their masks show. -/
theorem find?_congr {window : Nat} (h : ∀ r, caret.row - min window maxWindow ≤ r →
      r ≤ caret.row + min window maxWindow → Alike (doc.line r) (doc'.line r)) :
    find? doc window caret = find? doc' window caret := by
  rw [find?, find?, within?, within?, opener?_congr fun r hle hrow => h r hle (by omega)]
  cases opener? doc' (min window maxWindow) caret with
  | none => rfl
  | some found =>
    have hcloser := closer?_congr (d := found.1) fun r hrow hle => h r (by omega) hle
    simp only [hcloser]

/-- With the caret's own row unchanged, the rows above count only by the walks over them. -/
theorem opener?_of_walks {window : Nat} (hcaret : doc.line caret.row = doc'.line caret.row)
    (h : ∀ r k, caret.row - window ≤ r → r < caret.row →
      openerBefore false k 0 (doc.glyphs r).reverse = openerBefore false k 0 (doc'.glyphs r).reverse) :
    opener? doc window caret = opener? doc' window caret := by
  rw [opener?, show doc.glyphs caret.row = doc'.glyphs caret.row from congrArg Text.glyphs hcaret, opener?]
  cases openerBefore true 0 0 ((doc'.glyphs caret.row).take caret.col).reverse with
  | hit found => rfl
  | past k => exact openerAbove_of_walks h

/-- So do the rows below. -/
theorem closer?_of_walks {d : Delimiter} {window : Nat} (hcaret : doc.line caret.row = doc'.line caret.row)
    (h : d.kind = .structural → ∀ r k, caret.row < r → r ≤ caret.row + window →
      closerAfter d k 0 0 (doc.glyphs r) = closerAfter d k 0 0 (doc'.glyphs r)) :
    closer? doc d window caret = closer? doc' d window caret := by
  rw [closer?, closer?, show doc.glyphs caret.row = doc'.glyphs caret.row from congrArg Text.glyphs hcaret, hcaret]
  cases hd : d.kind with
  | string => rfl
  | structural =>
    simp only
    cases closerAfter d 0 0 (min caret.col (doc'.line caret.row).length)
        ((doc'.glyphs caret.row).drop (min caret.col (doc'.line caret.row).length)) with
    | hit col => rfl
    | past k => exact closerBelow_of_walks fun r k hle hlt => h hd r k hle (by omega)

theorem find?_of_opener?_closer? {window : Nat}
    (hopener : opener? doc (min window maxWindow) caret = opener? doc' (min window maxWindow) caret)
    (hcloser : ∀ d, closer? doc d (min window maxWindow) caret = closer? doc' d (min window maxWindow) caret) :
    find? doc window caret = find? doc' window caret := by
  rw [find?, find?, within?, within?, hopener]
  simp only [hcloser]

end

end TabKey.Enclosure
