namespace TabKey.Toml

inductive Flaw
  /-- It breaks the grammar, or gives one key two values. -/
  | grammar
  /-- The number in an escape names no character. -/
  | codePoint
deriving DecidableEq, Repr

def Flaw.message? : Flaw → Option String
  | grammar => none
  | codePoint => some "invalid value, expected unicode hexadecimal value"

inductive Real
  | finite (negative : Bool) (digits : Nat) (exponent : Int)
  | infinite (negative : Bool)
  | nan
deriving DecidableEq, Repr

inductive Value
  | string (text : String)
  | integer (n : Int)
  /-- Written like an integer, but its characters spell no number. A document may hold one as long
  as nobody asks for it. -/
  | garbled
  | real (x : Real)
  | boolean (b : Bool)
  | moment
  | array (items : List Value)
  | table (entries : List (String × Value))
deriving Repr

abbrev Reader (α : Type) := List Char → Option (α × List Char)

end TabKey.Toml
