import TabKey.Buffer

namespace TabKey.Report

inductive Json
  | text (s : String)
  | number (n : Nat)
  | list (items : List Json)
  | record (fields : List (String × Json))
deriving Repr

def escapedChar (c : Char) : List Char :=
  if c = '"' ∨ c = '\\' then ['\\', c]
  else if c = '\n' then ['\\', 'n']
  else if c = '\r' then ['\\', 'r']
  else if c = '\t' then ['\\', 't']
  else if c = '\x08' then ['\\', 'b']
  else if c = '\x0c' then ['\\', 'f']
  else if c.toNat < 0x20 then
    ['\\', 'u', '0', '0'] ++ Nat.toDigits 16 (c.toNat / 16) ++ Nat.toDigits 16 (c.toNat % 16)
  else [c]

def stringText (s : String) : String :=
  String.ofList ('"' :: s.toList.flatMap escapedChar ++ ['"'])

def newLine (depth : Nat) : String := String.ofList ('\n' :: List.replicate (2 * depth) ' ')

def block (opener closer : String) (depth : Nat) (parts : List String) : String :=
  if parts.isEmpty then opener ++ closer
  else
    opener ++ newLine (depth + 1) ++ ("," ++ newLine (depth + 1)).intercalate parts ++
      newLine depth ++ closer

mutual

def Json.pretty (depth : Nat) : Json → String
  | .text s => stringText s
  | .number n => toString n
  | .list items => block "[" "]" depth (prettyItems (depth + 1) items)
  | .record fields => block "\x7b" "\x7d" depth (prettyFields (depth + 1) fields)

def prettyItems (depth : Nat) : List Json → List String
  | [] => []
  | item :: rest => item.pretty depth :: prettyItems depth rest

def prettyFields (depth : Nat) : List (String × Json) → List String
  | [] => []
  | (name, value) :: rest =>
    (stringText name ++ ": " ++ value.pretty depth) :: prettyFields depth rest

end

def ofPosition (p : Position) : Json := .record [("row", .number p.row), ("col", .number p.col)]

def actionName : Action → String
  | .indentBlock => "indent-block"
  | .indentThenOutdent _ => "indent-then-outdent"
  | .insertTab => "insert-tab"
  | .moveCaretRight => "move-caret-right"
  | .jumpInto _ => "jump-into"
  | .jumpOut _ => "jump-out"
  | .moveCaretTo _ => "move-caret-to"

def actionFields : Action → List (String × Json)
  | .indentThenOutdent outdents => [("outdents", .number outdents)]
  | .jumpInto p | .jumpOut p | .moveCaretTo p => [("target", ofPosition p)]
  | .indentBlock | .insertTab | .moveCaretRight => []

def ofAction (a : Action) : Json := .record (("action", .text (actionName a)) :: actionFields a)

def revealName : Reveal → String
  | .default => "default"
  | .centerIfOutside => "center-if-outside"

def outcomeName : Outcome → String
  | .disabled => "disabled"
  | .noEditor => "no-editor"
  | .performed _ => "performed"

def ofTrigger (outcome : Outcome) (b : Buffer) : Json :=
  let action := (outcome.action?.map fun a => ("action", ofAction a)).toList
  let reveal := (b.reveal.map fun r => ("reveal", Json.text (revealName r))).toList
  .record (("outcome", .text (outcomeName outcome)) :: action ++ reveal ++
    [("warnings", .list (b.warnings.map .text))])

def logFields (name fields : String) : String := name ++ " \x7b " ++ fields ++ " \x7d"

def logPosition (p : Position) : String :=
  logFields "Position" ("row: " ++ toString p.row ++ ", col: " ++ toString p.col)

def logAction : Action → String
  | .indentBlock => "IndentBlock"
  | .indentThenOutdent outdents =>
    logFields "IndentThenOutdent" ("outdents: " ++ toString outdents)
  | .insertTab => "InsertTab"
  | .moveCaretRight => "MoveCaretRight"
  | .jumpInto p => logFields "JumpInto" ("target: " ++ logPosition p)
  | .jumpOut p => logFields "JumpOut" ("target: " ++ logPosition p)
  | .moveCaretTo p => logFields "MoveCaretTo" ("target: " ++ logPosition p)

def logOutcome : Outcome → String
  | .disabled => "Disabled"
  | .noEditor => "NoEditor"
  | .performed a => "Performed(" ++ logAction a ++ ")"

end TabKey.Report
