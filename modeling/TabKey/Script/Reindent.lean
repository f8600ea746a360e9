import TabKey.Script.Edit
import TabKey.Script.Statement
import TabKey.Settings

namespace TabKey.Script

def edit? (indent : Indent) (row level : Nat) (line : List Char) : Option Edit :=
  let target := indent.indentation level
  if Text.margin line = target then none else some ⟨row, (Text.margin line).length, target⟩

/-- The edits for the lines from `row` on, where `level` is the level so far. Blank lines need
none. -/
def editsFrom (indent : Indent) (row level : Nat) : List (List Char) → List Edit
  | [] => []
  | line :: rest =>
    let line := Text.dropBreak line
    if Text.isBlank line then editsFrom indent (row + 1) level rest
    else
      let statement := Statement.ofLine (Text.trim line)
      (edit? indent row (statement.levelAt level) line).toList ++
        editsFrom indent (row + 1) (statement.levelAfter level) rest

def edits (indent : Indent) (lines : List (List Char)) : List Edit := editsFrom indent 0 0 lines

def editsOf (indent : Indent) (text : List Char) : List Edit :=
  edits indent ((Text.rows text).map Text.Row.content)

def reindent (indent : Indent) (text : List Char) : List Char :=
  Edit.applyAll (editsOf indent text) text

end TabKey.Script
