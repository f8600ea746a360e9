import TabKey.Delimiter.Token
import TabKey.Document
import TabKey.Position

/-! The delimiter pair around a caret. Quotes are paired up from right to left on the caret's own row only; to the
right every row skips complete quoted spans. -/
namespace TabKey
open Text (Glyph)

/-- The pair around a caret: where its opening token starts, and the position right after its
closing token. -/
structure Enclosure where
  opened : Position
  closed : Position
  kind : DelimiterKind
deriving DecidableEq, Repr

/-- How a walk over one row ends: at what it looked for, or past the row with `depth` pairs still
to be balanced. -/
inductive Walk (α : Type)
  | hit (found : α)
  | past (depth : Nat)
deriving DecidableEq, Repr

namespace Enclosure

/-- One row read from right to left, where `before` holds the glyphs left of the place, nearest
first. The first `skip` of them are passed over. A quote whose partner stands further left is a
complete literal and is passed over whole; one without a partner is the opener. Brackets of all
kinds share one depth. -/
def openerBefore (quoted : Bool) : (depth skip : Nat) → List Glyph → Walk (Delimiter × Nat)
  | depth, _, [] => .past depth
  | depth, skip + 1, _ :: before => openerBefore quoted depth skip before
  | depth, 0, g :: before =>
    match if quoted then Token.quoteBefore? (g :: before) else none with
    | some q =>
      let start := (g :: before).length - q.opener.length
      match Token.last? q.opener ((g :: before).drop q.opener.length) with
      | some partner => openerBefore quoted depth (before.length - partner) before
      | none => .hit (q, start)
    | none =>
      if g.escaped then openerBefore quoted depth 0 before
      else
        match Delimiter.ofOpener? g.char with
        | some d =>
          match depth with
          | 0 => .hit (d, before.length)
          | depth + 1 => openerBefore quoted depth 0 before
        | none =>
          if (Delimiter.ofCloser? g.char).isSome then openerBefore quoted (depth + 1) 0 before
          else openerBefore quoted depth 0 before

def openerAbove (doc : Document) : (window depth row : Nat) → Option (Delimiter × Position)
  | window + 1, depth, row + 1 =>
    match openerBefore false depth 0 (doc.glyphs row).reverse with
    | .hit (d, col) => some (d, ⟨row, col⟩)
    | .past depth => openerAbove doc window depth row
  | 0, _, _ => none
  | _, _, 0 => none

def opener? (doc : Document) (window : Nat) (caret : Position) : Option (Delimiter × Position) :=
  match openerBefore true 0 0 ((doc.glyphs caret.row).take caret.col).reverse with
  | .hit (d, col) => some (d, ⟨caret.row, col⟩)
  | .past depth => openerAbove doc window depth caret.row

/-- The length of the complete quoted span that begins here: the longest quote, its content, and
the same quote again. -/
def quotedSpan? (gs : List Glyph) : Option Nat :=
  match Token.quoteAt? gs with
  | some q =>
    (Token.first? q.opener (gs.drop q.opener.length)).map fun n =>
      q.opener.length + n + q.opener.length
  | none => none

/-- One row read from left to right, from column `col` on: the end of the first closer of `d` that
no opener of `d` balances. The first `skip` glyphs are passed over, and so is every complete quoted
span. -/
def closerAfter (d : Delimiter) : (depth skip col : Nat) → List Glyph → Walk Nat
  | depth, _, _, [] => .past depth
  | depth, skip + 1, col, _ :: rest => closerAfter d depth skip (col + 1) rest
  | depth, 0, col, g :: rest =>
    match quotedSpan? (g :: rest) with
    | some len => closerAfter d depth (len - 1) (col + 1) rest
    | none =>
      if Token.beginsAt d.closer (g :: rest) then
        match depth with
        | 0 => .hit (col + d.closer.length)
        | depth + 1 => closerAfter d depth 0 (col + 1) rest
      else if Token.beginsAt d.opener (g :: rest) then closerAfter d (depth + 1) 0 (col + 1) rest
      else closerAfter d depth 0 (col + 1) rest

def closerBelow (doc : Document) (d : Delimiter) : (window depth row : Nat) → Option Position
  | 0, _, _ => none
  | window + 1, depth, row =>
    match closerAfter d depth 0 0 (doc.glyphs row) with
    | .hit col => some ⟨row, col⟩
    | .past depth => closerBelow doc d window depth (row + 1)

def closer? (doc : Document) (d : Delimiter) (window : Nat) (caret : Position) : Option Position :=
  let col := min caret.col (doc.line caret.row).length
  let after := (doc.glyphs caret.row).drop col
  match d.kind with
  | .string => (Token.first? d.closer after).map fun n => ⟨caret.row, col + n + d.closer.length⟩
  | .structural =>
    match closerAfter d 0 0 col after with
    | .hit col => some ⟨caret.row, col⟩
    | .past depth => closerBelow doc d window depth (caret.row + 1)

def within? (doc : Document) (window : Nat) (caret : Position) : Option Enclosure :=
  match opener? doc window caret with
  | none => none
  | some (d, opened) => (closer? doc d window caret).map fun closed => ⟨opened, closed, d.kind⟩

def maxWindow : Nat := 50

def find? (doc : Document) (window : Nat) (caret : Position) : Option Enclosure :=
  within? doc (min window maxWindow) caret

end Enclosure

end TabKey
