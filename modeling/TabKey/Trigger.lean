import TabKey.Decision

namespace TabKey

inductive Outcome
  /-- Switched off: the host's own tab ran. -/
  | disabled
  /-- There was nothing to edit. -/
  | noEditor
  | performed (action : Action)
deriving DecidableEq, Repr

structure View where
  document : Document
  selection : Selection
deriving DecidableEq, Repr

def noEditorMessage : String := "No active editor"

namespace Outcome

def ofTrigger (settings : Settings) : Option View → Outcome
  | view? =>
    if !settings.enable then disabled
    else
      match view? with
      | none => noEditor
      | some view =>
        performed ((view.document.situation view.selection settings).decide settings)

def commands : Outcome → List Command
  | disabled => [.defaultTab]
  | noEditor => [.showWarning noEditorMessage]
  | performed action => action.commands

def action? : Outcome → Option Action
  | performed action => some action
  | _ => none

end Outcome

end TabKey
