import TabKey.Position

namespace TabKey

inductive Action
  /-- Indent every selected line by one unit. -/
  | indentBlock
  /-- Indent once per span, then take `outdents` of the units back. -/
  | indentThenOutdent (outdents : Nat)
  | insertTab
  | moveCaretRight
  /-- Place the caret just inside an opener to its right. -/
  | jumpInto (target : Position)
  /-- Place the caret just past the closer of the pair around it. -/
  | jumpOut (target : Position)
  | moveCaretTo (target : Position)
deriving DecidableEq, Repr

inductive Reveal
  | default
  /-- Center the caret, but only if it left the view. -/
  | centerIfOutside
deriving DecidableEq, Repr

inductive Command
  | indentLines
  | outdentLines
  | insertTab
  /-- The host's own handling of the key. -/
  | defaultTab
  | moveCursorRight
  /-- Collapse the selection to one caret. -/
  | setCursor (target : Position) (reveal : Reveal)
  | showWarning (message : String)
deriving DecidableEq, Repr

namespace Action

def target? : Action → Option Position
  | jumpInto p | jumpOut p | moveCaretTo p => some p
  | _ => none

def commands : Action → List Command
  | indentBlock => [.indentLines]
  | indentThenOutdent outdents => .indentLines :: List.replicate outdents .outdentLines
  | insertTab => [.insertTab]
  | moveCaretRight => [.moveCursorRight]
  | jumpInto p | moveCaretTo p => [.setCursor p .default]
  | jumpOut p => [.setCursor p .centerIfOutside]

end Action

def Command.withoutOwnTab : Command → Command
  | .defaultTab => .insertTab
  | c => c

end TabKey
