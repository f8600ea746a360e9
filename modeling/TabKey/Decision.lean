import TabKey.Action
import TabKey.Situation

/-! The rules of the key. The first that applies wins. -/
namespace TabKey.Situation

inductive Rule
  | selectedText
  | sharedLine
  | closerAhead
  | blankLine
  | contentStart
  | insidePair
  | pairAhead
  | lineEnd
  | manyRows
  | fallback
deriving DecidableEq, Repr

def atContentStart (s : Situation) : Bool := s.line.any (·.atContentStart)

def hasCloserAhead (s : Situation) : Bool := s.line.any (·.closerAhead)

def exit? (s : Situation) : Option Position := s.enclosure.map (·.closed)

def entry? (s : Situation) : Option Position := do
  let line ← s.line
  let ahead ← line.pairAhead
  return ⟨line.caret.row, ahead.inner⟩

def onLine? (s : Situation) (eager : Bool) : Option (Rule × Action) :=
  match if eager && s.hasCloserAhead then s.exit? else none with
  | some target => some (.closerAhead, .jumpOut target)
  | none =>
    if s.atContentStart && s.atLineEnd then some (.blankLine, .insertTab)
    else if s.atContentStart then some (.contentStart, .indentBlock)
    else
      match s.exit?, s.entry? with
      | some target, _ => some (.insidePair, .jumpOut target)
      | none, some target => some (.pairAhead, .jumpInto target)
      | none, none => if s.atLineEnd then some (.lineEnd, .moveCaretRight) else none

def onSharedLine? (s : Situation) (eager : Bool) : Option (Rule × Action) :=
  if s.rowCount < s.spanCount && !s.atLineEnd then
    some (.sharedLine, .indentThenOutdent (s.spanCount - 1))
  else s.onLine? eager

def offLine (s : Situation) : Rule × Action :=
  if 1 < s.rowCount && s.spanCount < s.rowCount && !s.atLineEnd then (.manyRows, .indentBlock)
  else (.fallback, .insertTab)

def ruling (s : Situation) (settings : Settings) : Rule × Action :=
  if s.selectsText then (.selectedText, .indentBlock)
  else if s.rowCount = 1 then (s.onSharedLine? settings.eagerJumpOut).getD s.offLine
  else s.offLine

def decide (s : Situation) (settings : Settings) : Action := (s.ruling settings).2

end TabKey.Situation
