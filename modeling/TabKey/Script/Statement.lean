import TabKey.Text.Space
import TabKey.Text.Word

namespace TabKey.Script

inductive Statement
  /-- Sits one level out; the level after it stays. -/
  | branch
  /-- Opens a block: the lines after it go one level in. -/
  | blockOpener
  /-- A top-level statement without a block; what follows is at level 0. -/
  | topLevel
  | plain
deriving DecidableEq, Repr

namespace Statement

def branchWords : List String := ["elif", "else"]

def blockWords : List String :=
  ["label", "menu", "screen", "if", "while", "for", "python", "define"]

def topLevelWords : List String := ["label", "screen", "init", "define"]

def afterWord? (line : List Char) (word : String) : Option (List Char) :=
  let word := word.toList
  if word.isPrefixOf line && Text.endsWord (line.drop word.length) then
    some (line.drop word.length)
  else none

def beginsWithWord (words : List String) (line : List Char) : Bool :=
  words.any fun word => (afterWord? line word).isSome

/-- The rest of a line from here on is one run up to a colon at its very end. -/
def runsToColon (rest : List Char) : Bool :=
  rest.getLast? = some ':' && !rest.contains '\n'

def opensBlock (words : List String) (line : List Char) : Bool :=
  words.any fun word => (afterWord? line word).any runsToColon

def ofLine (line : List Char) : Statement :=
  if beginsWithWord branchWords line then branch
  else if opensBlock blockWords line then blockOpener
  else if beginsWithWord topLevelWords line && line.getLast? != some ':' then topLevel
  else plain

def levelAt : Statement → Nat → Nat
  | branch, level => level - 1
  | _, level => level

def levelAfter : Statement → Nat → Nat
  | blockOpener, level => level + 1
  | topLevel, _ => 0
  | _, level => level

end Statement

end TabKey.Script
