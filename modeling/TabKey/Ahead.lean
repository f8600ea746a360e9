import TabKey.Delimiter.Token
import TabKey.Text.Space

namespace TabKey

structure PairAhead where
  delimiter : Delimiter
  column : Nat
deriving DecidableEq, Repr

namespace PairAhead

def inner (p : PairAhead) : Nat := p.column + p.delimiter.opener.length

def candidate? (line : List Char) (col : Nat) (d : Delimiter) : Option PairAhead := do
  let column ← Token.find? line col d.opener
  let _ ← Token.find? line (column + d.opener.length) d.closer
  return ⟨d, column⟩

def leftmost : Option PairAhead → Option PairAhead → Option PairAhead
  | some a, some b => if a.column ≤ b.column then some a else some b
  | some a, none => some a
  | none, b => b

/-- The leftmost complete pair right of `col`; where several begin together, the longest. -/
def find? (line : List Char) (col : Nat) : Option PairAhead :=
  (Delimiter.all.map (candidate? line (min col line.length))).foldl leftmost none

end PairAhead

namespace CloserAhead

/-- What counts as a closer right ahead: every closing token, longest first, and the two marks
that end a statement or a head. -/
def tokens : List (List Char) := Delimiter.all.map Delimiter.closer ++ [[';'], [':']]

def defaultMaxGap : Nat := 64

def find? (line : List Char) (col maxGap : Nat) : Option (List Char) :=
  let col := min col line.length
  let gap := (Text.margin (line.drop col)).length
  if maxGap < gap then none else tokens.find? (Token.standsAt line (col + gap))

end CloserAhead

end TabKey
