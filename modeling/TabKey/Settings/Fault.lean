import TabKey.Decimal.Shortest
import TabKey.Text.Quoted
import TabKey.Toml.Value

namespace TabKey.Settings

inductive Expected
  | count
  | flag
  | record (name : String)
deriving DecidableEq, Repr

def Expected.text : Expected → String
  | count => "usize"
  | flag => "a boolean"
  | record name => "struct " ++ name

inductive Fault
  | unknownField (name : String) (known : List String)
  | wrongType (found : Toml.Value) (expected : Expected)
  | negative (n : Int) (expected : Expected)
deriving Repr

def describeReal : Toml.Real → Option String
  | .nan => some "NaN"
  | .infinite negative => some (if negative then "-inf" else "inf")
  | .finite negative digits exponent =>
    (Decimal.Binary64.ofDecimal? digits exponent).map fun x =>
      (if negative then "-" else "") ++ x.shortest.positional

/-- An integer as a message shows it; one that needs more than 64 bits names the type it needs, and
past 128 bits there is none. -/
def describeInteger (n : Int) : Option String :=
  let text := "integer `" ++ toString n ++ "`"
  if -(Nat.pow 2 63) ≤ n ∧ n < Nat.pow 2 64 then some text
  else if -(Nat.pow 2 127) ≤ n ∧ n < Nat.pow 2 127 then some (text ++ " as i128")
  else if 0 ≤ n ∧ n < Nat.pow 2 128 then some (text ++ " as u128")
  else none

/-- A value as a message shows it, if it has a reading at all. A date or time counts as a map. -/
def describe : Toml.Value → Option String
  | .string text => some ("string " ++ Text.quoted text)
  | .integer n => describeInteger n
  | .garbled => none
  | .real x => (describeReal x).map fun text => "floating point `" ++ text ++ "`"
  | .boolean b => some ("boolean `" ++ (if b then "true" else "false") ++ "`")
  | .moment | .table _ => some "map"
  | .array _ => some "sequence"

namespace Fault

def quotedName (name : String) : String := "`" ++ name ++ "`"

def knownNames : List String → String
  | [a] => quotedName a
  | [a, b] => quotedName a ++ " or " ++ quotedName b
  | names => "one of " ++ ", ".intercalate (names.map quotedName)

def message? : Fault → Option String
  | unknownField name known =>
    some ("unknown field " ++ quotedName name ++ ", expected " ++ knownNames known)
  | wrongType found expected =>
    (describe found).map fun text => "invalid type: " ++ text ++ ", expected " ++ expected.text
  | negative n expected =>
    (describeInteger n).map fun text => "invalid value: " ++ text ++ ", expected " ++ expected.text

end Fault

end TabKey.Settings
