import TabKey.Toml.Value

/-! Numbers as a whole text spells them out. Reals are checked in full; of an integer with underscores only the
neighbours of these are. -/
namespace TabKey.Toml

def digitValue (c : Char) : Nat :=
  if c.isDigit then c.toNat - 0x30 else if 'a' ≤ c then c.toNat - 0x57 else c.toNat - 0x37

def natOf (base : Nat) (digits : List Char) : Nat :=
  digits.foldl (fun n c => n * base + digitValue c) 0

def isHexDigit (c : Char) : Bool :=
  c.isDigit || ('a' ≤ c && c ≤ 'f') || ('A' ≤ c && c ≤ 'F')

def splitSign : List Char → Bool × List Char
  | '+' :: rest => (false, rest)
  | '-' :: rest => (true, rest)
  | cs => (false, cs)

def unsigned (cs : List Char) : List Char := (splitSign cs).2

def withSign (negative : Bool) (n : Nat) : Int := if negative then -n else n

/-- Each underscore stands between two digits, where `after` says whether one may come first. -/
def groupedFrom (isDigit : Char → Bool) : (after : Bool) → List Char → Bool
  | _, [] => true
  | after, c :: rest =>
    if c = '_' then after && rest.head?.any isDigit && groupedFrom isDigit false rest
    else groupedFrom isDigit (isDigit c) rest

/-- Underscores stand between digits; one right after the first character may also follow a sign. -/
def isGrouped (isDigit : Char → Bool) : List Char → Bool
  | [] => true
  | c :: rest => c != '_' && groupedFrom isDigit true rest

def ungrouped (cs : List Char) : List Char := cs.filter (· != '_')

def inBase? (base : Nat) (isDigit : Char → Bool) (cs : List Char) : Option Value :=
  if cs.all (fun c => isDigit c || c = '_') && isGrouped isHexDigit cs then
    some (if cs.isEmpty then .garbled else .integer (natOf base (ungrouped cs)))
  else none

def marked? : List Char → Option Value
  | '0' :: 'x' :: rest => inBase? 16 isHexDigit rest
  | '0' :: 'o' :: rest => inBase? 8 (fun c => '0' ≤ c && c ≤ '7') rest
  | '0' :: 'b' :: rest => inBase? 2 (fun c => c = '0' || c = '1') rest
  | _ => none

def decimal? (cs : List Char) : Option Int :=
  let (negative, digits) := splitSign cs
  if digits.isEmpty || digits.any (!·.isDigit) then none
  else some (withSign negative (natOf 10 digits))

def integer? (run : List Char) : Option Value :=
  let body := unsigned run
  if (body.head? = some '0' && body != ['0']) || !isGrouped isHexDigit run then none
  else some ((decimal? (ungrouped run)).elim .garbled .integer)

def isDigitOrGroup (c : Char) : Bool := c.isDigit || c = '_'

def digits? (cs : List Char) : Option (List Char × List Char) :=
  match ungrouped (cs.takeWhile isDigitOrGroup) with
  | [] => none
  | digits => some (digits, cs.dropWhile isDigitOrGroup)

def fraction? : List Char → Option (List Char × List Char)
  | '.' :: rest => digits? rest
  | cs => some ([], cs)

def exponent? : List Char → Option (Int × List Char)
  | c :: rest =>
    if c = 'e' ∨ c = 'E' then
      let (negative, rest) := splitSign rest
      (digits? rest).map fun (digits, rest) => (withSign negative (natOf 10 digits), rest)
    else some (0, c :: rest)
  | [] => some (0, [])

def real? (run : List Char) : Option Real := do
  let (negative, body) := splitSign run
  let (whole, rest) ← digits? body
  let (part, rest) ← fraction? rest
  let (exponent, rest) ← exponent? rest
  let isPadded := 1 < whole.length && body.head? = some '0'
  if isPadded || !rest.isEmpty || !isGrouped Char.isDigit run then none
  else some (.finite negative (natOf 10 (whole ++ part)) (exponent - part.length))

def special? (run : List Char) : Option Real :=
  let (negative, body) := splitSign run
  if body = ['i', 'n', 'f'] then some (.infinite negative)
  else if body = ['n', 'a', 'n'] then some .nan
  else none

end TabKey.Toml
