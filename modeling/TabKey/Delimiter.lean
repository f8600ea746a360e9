namespace TabKey

inductive DelimiterKind
  | structural
  | string
deriving DecidableEq, Repr

inductive Delimiter
  | tripleDouble | tripleSingle
  | paren | brace | bracket | angle
  | double | single | backquote
deriving DecidableEq, Repr

namespace Delimiter

def kind : Delimiter → DelimiterKind
  | paren | brace | bracket | angle => .structural
  | tripleDouble | tripleSingle | double | single | backquote => .string

def opener : Delimiter → List Char
  | tripleDouble => ['"', '"', '"']
  | tripleSingle => ['\x27', '\x27', '\x27']
  | paren => ['(']
  | brace => ['{']
  | bracket => ['[']
  | angle => ['<']
  | double => ['"']
  | single => ['\x27']
  | backquote => ['\x60']

def closer : Delimiter → List Char
  | paren => [')']
  | brace => ['}']
  | bracket => [']']
  | angle => ['>']
  | d => d.opener

def brackets : List Delimiter := [paren, brace, bracket, angle]

def quotes : List Delimiter := [tripleDouble, tripleSingle, double, single, backquote]

/-- Every pair, longest first, so that three quotes are never read as one. -/
def all : List Delimiter :=
  [tripleDouble, tripleSingle, paren, brace, bracket, angle, double, single, backquote]

def ofOpener? (c : Char) : Option Delimiter := brackets.find? (·.opener == [c])

def ofCloser? (c : Char) : Option Delimiter := brackets.find? (·.closer == [c])

theorem mem_all (d : Delimiter) : d ∈ all := by cases d <;> decide

theorem opener_ne_nil (d : Delimiter) : d.opener ≠ [] := by cases d <;> decide

theorem closer_ne_nil (d : Delimiter) : d.closer ≠ [] := by cases d <;> decide

theorem closer_eq_opener {d : Delimiter} (h : d.kind = .string) : d.closer = d.opener := by
  cases d <;> first | rfl | cases h

end Delimiter

end TabKey
