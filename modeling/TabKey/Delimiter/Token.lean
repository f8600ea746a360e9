import TabKey.Delimiter
import TabKey.Text.Escape

/-! Tokens on a line. Searches to the right read the glyphs from a column on; searches to the left read the glyphs
before a column, nearest first. -/
namespace TabKey.Token
open Text (Glyph)

def spells : List Char → List Glyph → Bool
  | [], _ => true
  | _ :: _, [] => false
  | c :: token, g :: rest => c == g.char && spells token rest

def beginsAt (token : List Char) : List Glyph → Bool
  | [] => false
  | g :: rest => !token.isEmpty && !g.escaped && spells token (g :: rest)

/-- The token ends right before the place that the glyphs, nearest first, lead up to. -/
def endsAt (token : List Char) (before : List Glyph) : Bool :=
  beginsAt token (before.take token.length).reverse

def first? (token : List Char) : List Glyph → Option Nat
  | [] => none
  | g :: rest => if beginsAt token (g :: rest) then some 0 else (first? token rest).map (· + 1)

def last? (token : List Char) : List Glyph → Option Nat
  | [] => none
  | g :: before =>
    if endsAt token (g :: before) then some ((g :: before).length - token.length)
    else last? token before

def quoteAt? (gs : List Glyph) : Option Delimiter :=
  Delimiter.quotes.find? fun q => beginsAt q.opener gs

def quoteBefore? (before : List Glyph) : Option Delimiter :=
  Delimiter.quotes.find? fun q => endsAt q.opener before

def standsAt (line : List Char) (col : Nat) (token : List Char) : Bool :=
  beginsAt token ((Text.glyphs line).drop col)

def find? (line : List Char) (start : Nat) (token : List Char) : Option Nat :=
  (first? token ((Text.glyphs line).drop start)).map (start + ·)

/-- The last column at which the token stands so that it ends at or before `stop`. -/
def rfind? (line : List Char) (stop : Nat) (token : List Char) : Option Nat :=
  last? token ((Text.glyphs line).take stop).reverse

theorem spells_iff {token : List Char} {gs : List Glyph} :
    spells token gs ↔ token <+: gs.map Glyph.char := by
  induction token generalizing gs with
  | nil => simp [spells]
  | cons c token ih =>
    cases gs with
    | nil => simp [spells]
    | cons g rest => simp [spells, ih]

end TabKey.Token
