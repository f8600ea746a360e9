import Mathlib.Data.List.Chain
import TabKey.Proofs.Escape

/-! What a line shows to a search. A mask covers every escaped character, and tokens are found on the masked line where
they are found on the line itself. -/
namespace TabKey

namespace Text

/-- Hides which character is escaped, not that one is. -/
def Glyph.mask (g : Glyph) : Glyph := if g.escaped then ⟨' ', true⟩ else g

@[simp] theorem Glyph.escaped_mask (g : Glyph) : g.mask.escaped = g.escaped := by
  unfold mask
  split
  · next h => exact h.symm
  · rfl

theorem Glyph.mask_of_not_escaped {g : Glyph} (h : g.escaped = false) : g.mask = g := by
  rw [mask, h]
  rfl

/-- Glyphs marked as on a line: what comes before an escaped one is a backslash. -/
def Marking (gs : List Glyph) : Prop := gs.IsChain fun a b => b.escaped → a.char = '\\'

theorem marking_marked (escaped : Bool) (cs : List Char) : Marking (marked escaped cs) := by
  induction cs generalizing escaped with
  | nil => exact .nil
  | cons c cs ih =>
    cases cs with
    | nil => exact .singleton _
    | cons d rest =>
      refine List.isChain_cons_cons.mpr ⟨?_, ih _⟩
      intro hd
      rw [Bool.and_eq_true, beq_iff_eq] at hd
      exact hd.1

theorem marking_glyphs (line : List Char) : Marking (glyphs line) := marking_marked false line

namespace Marking
variable {g : Glyph} {gs : List Glyph}

theorem take (h : Marking gs) (n : Nat) : Marking (gs.take n) := List.IsChain.take h n

theorem drop (h : Marking gs) (n : Nat) : Marking (gs.drop n) := List.IsChain.drop h n

theorem of_cons (h : Marking (g :: gs)) : Marking gs := List.IsChain.tail h

/-- The same for glyphs given nearest first. -/
theorem of_reverse_cons (h : Marking (g :: gs).reverse) : Marking gs.reverse := by
  rw [List.reverse_cons] at h
  exact List.IsChain.left_of_append h

theorem drop_reverse (h : Marking gs.reverse) (n : Nat) : Marking (gs.drop n).reverse := by
  rw [List.reverse_drop]
  exact h.take _

end Marking

/-- Lines that differ in escaped characters alone, with white space in the same places. -/
structure Alike (line line' : List Char) : Prop where
  masked : (glyphs line).map Glyph.mask = (glyphs line').map Glyph.mask
  spaces : line.map isSpace = line'.map isSpace

namespace Alike
variable {line line' : List Char}

theorem of_eq (h : line = line') : Alike line line' := h ▸ ⟨rfl, rfl⟩

theorem length_eq (h : Alike line line') : line.length = line'.length := by
  have hlength := congrArg List.length h.spaces
  rwa [List.length_map, List.length_map] at hlength

theorem isBlank_take (h : Alike line line') (n : Nat) : isBlank (line.take n) = isBlank (line'.take n) := by
  have hall (cs : List Char) : isBlank cs = (cs.map isSpace).all id := by
    rw [isBlank, List.all_map]
    rfl
  rw [hall, hall, List.map_take, List.map_take, h.spaces]

theorem isBlank_eq (h : Alike line line') : isBlank line = isBlank line' := by
  have hblank := h.isBlank_take line.length
  rwa [List.take_length, h.length_eq, List.take_length] at hblank

theorem length_margin_drop (h : Alike line line') (n : Nat) :
    (margin (line.drop n)).length = (margin (line'.drop n)).length := by
  have hmargin (cs : List Char) : (margin cs).length = ((cs.map isSpace).takeWhile id).length := by
    rw [margin, List.takeWhile_map, List.length_map]
    rfl
  rw [hmargin, hmargin, List.map_drop, List.map_drop, h.spaces]

/-- What cannot tell a line from its mask gives the same on both lines, from any column on. -/
theorem drop_congr {α : Type} {f : List Glyph → α} (h : Alike line line')
    (hf : ∀ gs, Marking gs → f (gs.map Glyph.mask) = f gs) (n : Nat) :
    f ((glyphs line).drop n) = f ((glyphs line').drop n) := by
  rw [← hf _ ((marking_glyphs line).drop n), List.map_drop, h.masked, ← List.map_drop,
    hf _ ((marking_glyphs line').drop n)]

/-- The same to the left of a column, where the nearest glyph is read first. -/
theorem take_congr {α : Type} {f : List Glyph → α} (h : Alike line line')
    (hf : ∀ before, Marking before.reverse → f (before.map Glyph.mask) = f before) (n : Nat) :
    f ((glyphs line).take n).reverse = f ((glyphs line').take n).reverse := by
  have hmarking (cs : List Char) : Marking ((glyphs cs).take n).reverse.reverse := by
    rw [List.reverse_reverse]
    exact (marking_glyphs cs).take n
  rw [← hf _ (hmarking line), List.map_reverse, List.map_take, h.masked, ← List.map_take,
    ← List.map_reverse, hf _ (hmarking line')]

end Alike

/-- Another character in an escaped place leaves the rest of the line as it was, marks and all. -/
private theorem map_mask_marked_set {escaped : Bool} {cs : List Char} {i : Nat} {old : Char} (new : Char)
    (h : (marked escaped cs)[i]? = some ⟨old, true⟩) :
    (marked escaped (cs.set i new)).map Glyph.mask = (marked escaped cs).map Glyph.mask := by
  induction cs generalizing escaped i with
  | nil => rfl
  | cons c cs ih =>
    cases i with
    | zero =>
      cases h
      simp [marked, Glyph.mask]
    | succ i =>
      rw [List.set_cons_succ, marked, marked, List.map_cons, List.map_cons, ih h]

/-- An escaped character that is no white space may be any other that is none. -/
theorem Alike.set {text : List Char} {i : Nat} {old new : Char} (hold : text[i]? = some old)
    (hescaped : isEscaped text i = true) (hspace : isSpace old = isSpace new) :
    Alike (text.set i new) text where
  masked := map_mask_marked_set new (by
    change (glyphs text)[i]? = _
    rw [getElem?_glyphs, hold, hescaped]
    rfl)
  spaces := by
    obtain ⟨hlt, rfl⟩ := List.getElem?_eq_some_iff.mp hold
    rw [List.map_set, ← hspace, ← List.map_set, List.set_getElem_self hlt]

end Text

namespace Token
open Text (Glyph Marking Alike)
variable {token : List Char} {gs before : List Glyph}

/-- A token holds no backslash, so behind its unescaped first character nothing of it is escaped. -/
private theorem spells_mask (htoken : '\\' ∉ token) (h : Marking gs)
    (hhead : ∀ g ∈ gs.head?, g.escaped = false) :
    spells token (gs.map Glyph.mask) = spells token gs := by
  induction token generalizing gs with
  | nil => rfl
  | cons c token ih =>
    obtain ⟨hc, htoken⟩ := List.ne_and_not_mem_of_not_mem_cons htoken
    cases gs with
    | nil => rfl
    | cons g rest =>
      rw [List.map_cons, Glyph.mask_of_not_escaped (hhead g rfl), spells, spells]
      cases hchar : c == g.char with
      | false => rfl
      | true =>
        refine congrArg _ (ih htoken h.of_cons ?_)
        intro next hnext
        cases rest with
        | nil => cases hnext
        | cons _ rest =>
          cases hnext
          rw [Bool.eq_false_iff]
          intro hescaped
          have hback := (List.isChain_cons_cons.mp h).1 hescaped
          exact hc ((beq_iff_eq.mp hchar).trans hback).symm

theorem beginsAt_mask (htoken : '\\' ∉ token) (h : Marking gs) :
    beginsAt token (gs.map Glyph.mask) = beginsAt token gs := by
  cases gs with
  | nil => rfl
  | cons g rest =>
    rw [List.map_cons, beginsAt, beginsAt, Glyph.escaped_mask, ← List.map_cons]
    cases hescaped : g.escaped with
    | true => simp
    | false =>
      rw [spells_mask htoken h]
      rintro _ ⟨⟩
      exact hescaped

theorem endsAt_mask (htoken : '\\' ∉ token) (h : Marking before.reverse) :
    endsAt token (before.map Glyph.mask) = endsAt token before := by
  rw [endsAt, endsAt, ← List.map_take, ← List.map_reverse, beginsAt_mask htoken]
  rw [List.reverse_take]
  exact h.drop _

theorem first?_mask (htoken : '\\' ∉ token) (h : Marking gs) :
    first? token (gs.map Glyph.mask) = first? token gs := by
  induction gs with
  | nil => rfl
  | cons g rest ih =>
    rw [List.map_cons, first?, ← List.map_cons, beginsAt_mask htoken h, ih h.of_cons, first?]

theorem last?_mask (htoken : '\\' ∉ token) (h : Marking before.reverse) :
    last? token (before.map Glyph.mask) = last? token before := by
  induction before with
  | nil => rfl
  | cons g before ih =>
    rw [List.map_cons, last?, ← List.map_cons, endsAt_mask htoken h, ih h.of_reverse_cons,
      List.length_map, last?]

theorem quoteAt?_mask (h : Marking gs) : quoteAt? (gs.map Glyph.mask) = quoteAt? gs :=
  List.find?_congr fun q _ => beginsAt_mask q.backslash_not_mem_opener h

theorem quoteBefore?_mask (h : Marking before.reverse) :
    quoteBefore? (before.map Glyph.mask) = quoteBefore? before :=
  List.find?_congr fun q _ => endsAt_mask q.backslash_not_mem_opener h

section
variable {line line' : List Char}

theorem standsAt_of_alike (h : Alike line line') (htoken : '\\' ∉ token) (col : Nat) :
    standsAt line col token = standsAt line' col token :=
  h.drop_congr (fun _ => beginsAt_mask htoken) col

theorem find?_of_alike (h : Alike line line') (htoken : '\\' ∉ token) (start : Nat) :
    find? line start token = find? line' start token :=
  congrArg _ (h.drop_congr (fun _ => first?_mask htoken) start)

end

end Token

section
variable {line line' : List Char}

theorem PairAhead.find?_of_alike (h : Text.Alike line line') (col : Nat) : find? line col = find? line' col := by
  have hcandidate : candidate? line (min col line.length) = candidate? line' (min col line'.length) := by
    funext d
    simp only [candidate?, h.length_eq, Token.find?_of_alike h d.backslash_not_mem_opener,
      Token.find?_of_alike h d.backslash_not_mem_closer]
  rw [find?, hcandidate, find?]

theorem CloserAhead.find?_of_alike (h : Text.Alike line line') (col maxGap : Nat) :
    find? line col maxGap = find? line' col maxGap := by
  simp only [find?, h.length_eq, h.length_margin_drop]
  split
  · rfl
  · refine List.find?_congr fun token htoken => ?_
    exact Token.standsAt_of_alike h (Token.Tabled.ahead htoken).backslash_not_mem _

end

end TabKey
