import TabKey.Toml.Number
import TabKey.Toml.Piece

namespace TabKey.Toml

def isPlain (c : Char) : Bool := c = '\t' || (0x20 ≤ c.toNat && c.toNat != 0x7F)

def named (n : Nat) (cs : List Char) : Except Flaw Char :=
  let digits := cs.take n
  let code := natOf 16 digits
  if digits.length < n || digits.any (!isHexDigit ·) then .error .grammar
  else if code.isValidChar then .ok (Char.ofNat code)
  else .error .codePoint

/-- The character an escape stands for and how many characters follow the backslash. -/
def escape : List Char → Except Flaw (Char × Nat)
  | 'b' :: _ => .ok ('\x08', 1)
  | 't' :: _ => .ok ('\t', 1)
  | 'n' :: _ => .ok ('\n', 1)
  | 'f' :: _ => .ok ('\x0c', 1)
  | 'r' :: _ => .ok ('\r', 1)
  | 'e' :: _ => .ok ('\x1b', 1)
  | '"' :: _ => .ok ('"', 1)
  | '\\' :: _ => .ok ('\\', 1)
  | 'x' :: rest => (named 2 rest).map fun c => (c, 3)
  | 'u' :: rest => (named 4 rest).map fun c => (c, 5)
  | 'U' :: rest => (named 8 rest).map fun c => (c, 9)
  | _ => .error .grammar

def spaceRun : List Char → Nat
  | '\r' :: '\n' :: rest => spaceRun rest + 2
  | c :: rest => if isBlank c || c = '\n' then spaceRun rest + 1 else 0
  | [] => 0

/-- After a backslash at the end of a line: how much white space it swallows. -/
def continuation? (cs : List Char) : Option Nat :=
  match cs.dropWhile isBlank with
  | '\n' :: _ | '\r' :: '\n' :: _ => some (spaceRun cs)
  | _ => none

/-- Whether a character may stand as it is, where `rest` follows it. Only a block has line ends,
and keeps them as they are. -/
def isKept (block : Bool) (c : Char) (rest : List Char) : Bool :=
  isPlain c || block && (c = '\n' || c = '\r' && rest.head? = some '\n')

def allKept (block : Bool) : List Char → Bool
  | [] => true
  | c :: rest => isKept block c rest && allKept block rest

def literalText (block : Bool) (cs : List Char) : Except Flaw (List Char) :=
  if allKept block cs then .ok cs else .error .grammar

/-- The characters of a string with escapes; the first `skip` ones are passed over. -/
def basicText (block : Bool) : (skip : Nat) → List Char → Except Flaw (List Char)
  | _, [] => .ok []
  | skip + 1, _ :: rest => basicText block skip rest
  | 0, c :: rest =>
    if c = '\\' then
      match if block then continuation? rest else none with
      | some n => basicText block n rest
      | none => do
        let (d, n) ← escape rest
        return d :: (← basicText block n rest)
    else if isKept block c rest then (basicText block 0 rest).map (c :: ·)
    else .error .grammar

def dropLineEnd : List Char → List Char
  | '\n' :: rest => rest
  | '\r' :: '\n' :: rest => rest
  | cs => cs

def unclosed (closing : List Char) (cs : List Char) : Except Flaw (List Char) :=
  if closing.isSuffixOf cs then .ok (cs.take (cs.length - closing.length)) else .error .grammar

def Piece.unquote (piece : Piece) : Except Flaw String :=
  let body := piece.text.drop
  String.ofList <$> match piece.quoting with
  | .bare => .error .grammar
  | .basic => do basicText false 0 (← unclosed ['"'] (body 1))
  | .literal => do literalText false (← unclosed ['\x27'] (body 1))
  | .basicBlock => do basicText true 0 (← unclosed ['"', '"', '"'] (dropLineEnd (body 3)))
  | .literalBlock => do
    literalText true (← unclosed ['\x27', '\x27', '\x27'] (dropLineEnd (body 3)))

end TabKey.Toml
