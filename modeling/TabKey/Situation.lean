import TabKey.Document
import TabKey.Selection.Extent
import TabKey.Settings

namespace TabKey

structure CaretLine where
  caret : Position
  /-- Nothing but white space before the caret. -/
  atContentStart : Bool
  pairAhead : Option PairAhead
  closerAhead : Bool
deriving DecidableEq, Repr

structure Situation where
  /-- Distinct rows that the selection touches. -/
  rowCount : Nat
  spanCount : Nat
  selectsText : Bool
  /-- Every span is a caret at the end of its line. -/
  atLineEnd : Bool
  /-- The primary caret's line is blank. -/
  onBlankLine : Bool
  enclosure : Option Enclosure
  /-- Present when the selection touches one row only. -/
  line : Option CaretLine
deriving DecidableEq, Repr

namespace Document

def atLineEnd (doc : Document) (sel : Selection) : Bool :=
  sel.spans.all fun s => s.isCaret && s.head.col == (doc.line s.head.row).length

def atContentStart (doc : Document) (p : Position) : Bool :=
  Text.isBlank ((doc.line p.row).take p.col)

/-- The pair around a span. Only a caret can be inside one. -/
def enclosure? (doc : Document) (window : Nat) (s : Span) : Option Enclosure :=
  if s.isCaret then Enclosure.find? doc window s.head else none

def caretLine (doc : Document) (settings : Settings) (caret : Position) : CaretLine :=
  let line := doc.line caret.row
  { caret
    atContentStart := doc.atContentStart caret
    pairAhead := PairAhead.find? line caret.col
    closerAhead := (CloserAhead.find? line caret.col settings.maxGap).isSome }

def situation (doc : Document) (sel : Selection) (settings : Settings) : Situation :=
  let caret := sel.primary.head
  { rowCount := sel.rowCount
    spanCount := sel.count
    selectsText := sel.selectsText
    atLineEnd := doc.atLineEnd sel
    onBlankLine := Text.isBlank (doc.line caret.row)
    enclosure := doc.enclosure? settings.searchLines sel.primary
    line := if sel.rowCount = 1 then some (doc.caretLine settings caret) else none }

end Document

end TabKey
