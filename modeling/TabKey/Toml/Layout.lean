import TabKey.Toml.Quote

/-! The layout of a document, each piece still as it is written. Only a text whose layout is sound as a whole is
looked at more closely. -/
namespace TabKey.Toml

inductive Draft
  | plain (piece : Piece)
  | array (items : List Draft)
  | table (fields : List (List Piece × Draft))

abbrev Field := List Piece × Draft

structure Section where
  path : List Piece
  again : Bool
  fields : List Field

structure Layout where
  fields : List Field
  sections : List Section

/-- Passes over blanks, line ends and comments; none when a comment holds a control character. -/
def skipTrivia : (inComment : Bool) → List Char → Option (List Char)
  | _, [] => some []
  | _, '\r' :: '\n' :: rest => skipTrivia false rest
  | inComment, c :: rest =>
    if c = '\n' then skipTrivia false rest
    else if inComment then if isPlain c then skipTrivia true rest else none
    else if isBlank c then skipTrivia false rest
    else if c = '#' then skipTrivia true rest
    else some (c :: rest)

def skipLine : (inComment : Bool) → List Char → Option (List Char)
  | _, [] => some []
  | _, '\r' :: '\n' :: rest => some rest
  | inComment, c :: rest =>
    if c = '\n' then some rest
    else if inComment then if isPlain c then skipLine true rest else none
    else if isBlank c then skipLine false rest
    else if c = '#' then skipLine true rest
    else none

def skipBlanks (cs : List Char) : List Char := cs.dropWhile isBlank

def expect (c : Char) : List Char → Option (List Char)
  | d :: rest => if c = d then some rest else none
  | [] => none

def keyPath? : (fuel : Nat) → Reader (List Piece)
  | 0, _ => none
  | fuel + 1, cs => do
    let (part, cs) := keyPart (skipBlanks cs)
    match skipBlanks cs with
    | '.' :: rest => do
      let (path, rest) ← keyPath? fuel rest
      some (part :: path, rest)
    | rest => some ([part], rest)

def items? (item : Reader Draft) : (fuel : Nat) → Reader (List Draft)
  | 0, _ => none
  | fuel + 1, cs => do
    match ← skipTrivia false cs with
    | ']' :: rest => some ([], rest)
    | cs =>
      let (draft, cs) ← item cs
      match ← skipTrivia false cs with
      | ',' :: rest => do
        let (drafts, rest) ← items? item fuel rest
        some (draft :: drafts, rest)
      | ']' :: rest => some ([draft], rest)
      | _ => none

def fields? (value : Reader Draft) : (fuel : Nat) → Reader (List Field)
  | 0, _ => none
  | fuel + 1, cs => do
    match ← skipTrivia false cs with
    | '\x7d' :: rest => some ([], rest)
    | cs =>
      let (path, cs) ← keyPath? (cs.length + 1) cs
      let cs ← expect '=' (← skipTrivia false cs)
      let (draft, cs) ← value (← skipTrivia false cs)
      match ← skipTrivia false cs with
      | ',' :: rest => do
        let (fields, rest) ← fields? value fuel rest
        some ((path, draft) :: fields, rest)
      | '\x7d' :: rest => some ([(path, draft)], rest)
      | _ => none

def plain? (mayBeEmpty : Bool) (cs : List Char) : Option (Draft × List Char) :=
  let (piece, rest) := valuePiece cs
  if piece.text.isEmpty && !mayBeEmpty then none else some (.plain piece, rest)

/-- How deep arrays and inline tables may nest, and how many parts a key may have. -/
def maxDepth : Nat := 80

def value? : (depth : Nat) → (mayBeEmpty : Bool) → Reader Draft
  | depth + 1, _, '[' :: rest =>
    (items? (value? depth false) (rest.length + 1) rest).map fun (drafts, rest) =>
      (.array drafts, rest)
  | depth + 1, _, '\x7b' :: rest =>
    (fields? (value? depth false) (rest.length + 1) rest).map fun (fields, rest) =>
      (.table fields, rest)
  | _, mayBeEmpty, cs => plain? mayBeEmpty cs

/-- A header without its first bracket: its path, and whether it is a repeated one. -/
def header? : Reader (List Piece × Bool)
  | '[' :: rest => do
    let (path, rest) ← keyPath? (rest.length + 1) rest
    some ((path, true), ← expect ']' (← expect ']' rest))
  | cs => do
    let (path, rest) ← keyPath? (cs.length + 1) cs
    some ((path, false), ← expect ']' rest)

def lines? : (fuel : Nat) → List Char → Option Layout
  | 0, _ => none
  | fuel + 1, cs => do
    match ← skipTrivia false cs with
    | [] => some ⟨[], []⟩
    | '[' :: rest =>
      let ((path, again), rest) ← header? rest
      let below ← lines? fuel (← skipLine false rest)
      some ⟨[], ⟨path, again, below.fields⟩ :: below.sections⟩
    | cs =>
      let (path, cs) ← keyPath? (cs.length + 1) cs
      let (draft, cs) ← value? maxDepth true (skipBlanks (← expect '=' cs))
      let below ← lines? fuel (← skipLine false cs)
      some { below with fields := (path, draft) :: below.fields }

def dropMark : List Char → List Char
  | '\ufeff' :: rest => rest
  | cs => cs

def Layout.ofText? (text : String) : Option Layout :=
  let cs := dropMark text.toList
  lines? (cs.length + 1) cs

end TabKey.Toml
