import TabKey.Toml.Layout
import TabKey.Toml.Scalar
import TabKey.Toml.Table

namespace TabKey.Toml

def isBareKeyChar (c : Char) : Bool := c.isAlphanum || c = '_' || c = '-'

def Piece.key (piece : Piece) : Except Flaw String :=
  match piece.quoting with
  | .bare =>
    if !piece.text.isEmpty && piece.text.all isBareKeyChar then .ok (String.ofList piece.text)
    else .error .grammar
  | .basic | .literal => piece.unquote
  | .basicBlock | .literalBlock => .error .grammar

def keys (path : List Piece) : Except Flaw (List String) := do
  let names ← path.mapM Piece.key
  if names.length ≤ maxDepth then .ok names else .error .grammar

def Piece.value (piece : Piece) : Except Flaw Value :=
  match piece.quoting with
  | .bare => (unquoted? piece.text).elim (.error .grammar) .ok
  | _ => .string <$> piece.unquote

mutual

def Draft.value : Draft → Except Flaw Value
  | .plain piece => piece.value
  | .array items => do return .array (← itemValues items)
  | .table fields => do return .table (Entries.values (← Entries.fill fields []))

def itemValues : List Draft → Except Flaw (List Value)
  | [] => .ok []
  | item :: rest => do
    let value ← item.value
    return value :: (← itemValues rest)

def Entries.fill : List (List Piece × Draft) → Entries → Except Flaw Entries
  | [], entries => .ok entries
  | (path, draft) :: rest, entries => do
    let path ← keys path
    let value ← draft.value
    Entries.fill rest (← entries.assign value true path)

end

/-- Adds what a header and its fields say. The fields of a repeated header make a table of their
own before it is added. -/
def Section.addTo (root : Entries) (part : Section) : Except Flaw Entries := do
  let path ← keys part.path
  match path.getLast? with
  | none => .error .grammar
  | some key =>
    if part.again then
      let table ← Entries.fill part.fields []
      root.update (Entries.append key table) path.dropLast
    else root.update (Entries.define key (Entries.fill part.fields)) path.dropLast

def Layout.entries (layout : Layout) : Except Flaw Entries := do
  layout.sections.foldlM Section.addTo (← Entries.fill layout.fields [])

def parse (text : String) : Except Flaw (List (String × Value)) :=
  match Layout.ofText? text with
  | none => .error .grammar
  | some layout => Entries.values <$> layout.entries

end TabKey.Toml
