import TabKey.Toml.Value

namespace TabKey.Toml

inductive Quoting
  | bare
  /-- Between double quotes on one line, with escapes. -/
  | basic
  /-- Between single quotes on one line, without escapes. -/
  | literal
  /-- Between three double quotes, on any number of lines. -/
  | basicBlock
  /-- Between three single quotes, on any number of lines. -/
  | literalBlock
deriving DecidableEq, Repr

structure Piece where
  quoting : Quoting
  text : List Char
deriving DecidableEq, Repr

def isBlank (c : Char) : Bool := c = ' ' || c = '\t'

def isQuote (c : Char) : Bool := c = '"' || c = '\x27'

def isAtom (c : Char) : Bool :=
  !(isBlank c || ['\n', '\r', '.', '=', ',', '[', ']', '\x7b', '\x7d', '#'].contains c)

def startsAtom (c : Char) : Bool := isAtom c && !isQuote c

def withFirst (c : Char) (parts : List Char × List Char) : List Char × List Char :=
  (c :: parts.1, parts.2)

/-- Whether `c` is a backslash that hides the quote or backslash after it from the search for the
end of a string with escapes. -/
def hidesNext (escapes : Bool) (c : Char) (rest : List Char) : Bool :=
  escapes && c = '\\' && rest.head?.any fun d => d = '\\' || d = '"'

/-- Splits after the quote that ends a line string, or where its line ends without one. -/
def splitLine (quote : Char) (escapes : Bool) : (hidden : Bool) → List Char → List Char × List Char
  | _, [] => ([], [])
  | hidden, c :: rest =>
    if hidden then withFirst c (splitLine quote escapes false rest)
    else if c = '\n' then ([], c :: rest)
    else if c = quote then ([c], rest)
    else withFirst c (splitLine quote escapes (hidesNext escapes c rest) rest)

/-- Splits after the three quotes that end a block, to which up to two more belong. -/
def splitBlock (quote : Char) (escapes : Bool) : (hidden : Bool) → List Char → List Char × List Char
  | _, [] => ([], [])
  | hidden, c :: rest =>
    if hidden then withFirst c (splitBlock quote escapes false rest)
    else if c = quote && rest.take 2 == [quote, quote] then
      let run := ((c :: rest).take 5).takeWhile (· = quote)
      (run, (c :: rest).drop run.length)
    else withFirst c (splitBlock quote escapes (hidesNext escapes c rest) rest)

def quotedPiece (quoting : Quoting) (opening : List Char) (parts : List Char × List Char) :
    Piece × List Char :=
  (⟨quoting, opening ++ parts.1⟩, parts.2)

def quoted? : Reader Piece
  | '"' :: '"' :: '"' :: rest =>
    some (quotedPiece .basicBlock ['"', '"', '"'] (splitBlock '"' true false rest))
  | '\x27' :: '\x27' :: '\x27' :: rest =>
    some (quotedPiece .literalBlock ['\x27', '\x27', '\x27'] (splitBlock '\x27' false false rest))
  | '"' :: rest => some (quotedPiece .basic ['"'] (splitLine '"' true false rest))
  | '\x27' :: rest => some (quotedPiece .literal ['\x27'] (splitLine '\x27' false false rest))
  | _ => none

def keyPart (cs : List Char) : Piece × List Char :=
  (quoted? cs).getD (⟨.bare, cs.takeWhile isAtom⟩, cs.dropWhile isAtom)

/-- Splits off an unquoted value: atoms with points between them, and blanks as long as an atom
follows. Inside an atom a quote is a character like any other. -/
def splitRun : (inside : Bool) → List Char → List Char × List Char
  | _, [] => ([], [])
  | inside, c :: rest =>
    if c = '.' then withFirst c (splitRun false rest)
    else if isAtom c && (inside || !isQuote c) then withFirst c (splitRun true rest)
    else if isBlank c && (rest.dropWhile isBlank).head?.any startsAtom then
      withFirst c (splitRun false rest)
    else ([], c :: rest)

def valuePiece (cs : List Char) : Piece × List Char :=
  let (run, rest) := splitRun false cs
  (quoted? cs).getD (⟨.bare, run⟩, rest)

end TabKey.Toml
