import TabKey.Settings
import TabKey.Text.Offset
import TabKey.Text.Splice
import TabKey.Trigger

namespace TabKey

structure Buffer where
  text : List Char
  selection : Selection
  indent : Indent
  warnings : List String := []
  /-- How the last placed caret is to be scrolled to. -/
  reveal : Option Reveal := none
deriving DecidableEq, Repr

namespace Buffer

def view (b : Buffer) : View := ⟨.ofText b.text, b.selection⟩

def maxColumn : Nat := Nat.pow 2 64 - 1

def shiftRight (row width : Nat) (p : Position) : Position :=
  if p.row = row then ⟨p.row, min (p.col + width) maxColumn⟩ else p

def shiftLeft (row width : Nat) (p : Position) : Position :=
  if p.row = row then ⟨p.row, p.col - width⟩ else p

@[simp] theorem row_shiftLeft (row width : Nat) (p : Position) : (shiftLeft row width p).row = p.row := by
  unfold shiftLeft
  split <;> rfl

theorem shiftLeft_zero (row : Nat) : shiftLeft row 0 = fun p => p := funext fun p => ite_self p

theorem shiftLeft_comp (row m n : Nat) : shiftLeft row n ∘ shiftLeft row m = shiftLeft row (m + n) := by
  funext p
  by_cases hp : p.row = row
  · simp [shiftLeft, hp, Nat.sub_sub]
  · simp [shiftLeft, hp]

def rowsOf (b : Buffer) (s : Span) : List Nat :=
  let stop := min (s.lastRow + 1) (Text.rowCount b.text)
  List.range' s.firstRow (stop - s.firstRow)

def indentRow (b : Buffer) (row : Nat) : Buffer :=
  let start := Text.rowStart b.text row
  { b with
    text := Text.splice b.text start start b.indent.unit
    selection := b.selection.map (·.map (shiftRight row b.indent.unit.length)) }

/-- Each span indents its own rows, so a row that several spans touch is indented once for each. -/
def indentLines (b : Buffer) : Buffer :=
  (b.selection.spans.flatMap b.rowsOf).foldl indentRow b

/-- How much one outdent takes from a line: a leading tab, or leading spaces up to one unit and
never fewer than one. -/
def outdentWidth (tabWidth : Nat) (line : List Char) : Nat :=
  if line.head? = some '\t' then 1
  else ((line.take (max tabWidth 1)).takeWhile (· == ' ')).length

def outdentRow (b : Buffer) (row : Nat) : Buffer :=
  let width := outdentWidth b.indent.tabWidth (Text.rowContent b.text row)
  if row < Text.rowCount b.text ∧ 0 < width then
    let start := Text.rowStart b.text row
    { b with
      text := Text.splice b.text start (start + width) []
      selection := b.selection.map (·.map (shiftLeft row width)) }
  else b

/-- Every row that some span touches is outdented once, from the top. -/
def outdentLines (b : Buffer) : Buffer :=
  let touched := fun row => b.selection.spans.any (·.touches row)
  ((List.range (Text.rowCount b.text)).filter touched).foldl outdentRow b

structure Stretch where
  start : Nat
  stop : Nat
  index : Nat
deriving DecidableEq, Repr

namespace Stretch

def le (a b : Stretch) : Bool :=
  a.start < b.start ||
    (a.start == b.start && (a.stop < b.stop || (a.stop == b.stop && a.index ≤ b.index)))

/-- Trims sorted stretches so that none reaches back over the one before it. -/
def trim : (reached : Nat) → List Stretch → List Stretch
  | _, [] => []
  | reached, s :: rest =>
    let start := max s.start reached
    let stop := max s.stop start
    ⟨start, stop, s.index⟩ :: trim stop rest

@[simp] theorem length_trim (reached : Nat) (ss : List Stretch) :
    (trim reached ss).length = ss.length := by
  induction ss generalizing reached with
  | nil => rfl
  | cons s rest ih => simp [trim, ih]

end Stretch

def stretches (b : Buffer) : List Stretch :=
  let raw := b.selection.spans.zipIdx.map fun (s, i) =>
    (⟨Text.offsetOf b.text s.first, Text.offsetOf b.text s.last, i⟩ : Stretch)
  Stretch.trim 0 (raw.mergeSort Stretch.le)

/-- Replaces what each span selects by one unit and leaves a caret after it. -/
def insertTab (b : Buffer) : Buffer :=
  let cuts := b.stretches.map fun s => (s.start, s.stop)
  let text := Text.spliceAll b.indent.unit 0 cuts b.text
  let ends := Text.splicedEnds b.indent.unit.length 0 0 cuts
  let placed := (b.stretches.map (·.index)).zip ends |>.mergeSort fun a c => a.1 ≤ c.1
  let carets := placed.map fun (_, i) => Span.caret (Text.positionAt text i)
  { b with text, selection := (Selection.ofSpans? carets).getD b.selection }

def successor (text : List Char) (p : Position) : Position :=
  let p := Text.clamp text p
  if p.col < (Text.rowContent text p.row).length then ⟨p.row, p.col + 1⟩
  else if p.row + 1 < Text.rowCount text then ⟨p.row + 1, 0⟩
  else p

def moveCursorRight (b : Buffer) : Buffer :=
  let move (s : Span) : Span :=
    .caret (if s.isCaret then successor b.text s.head else s.last)
  { b with selection := b.selection.map move }

def setCursor (b : Buffer) (target : Position) (reveal : Reveal) : Buffer :=
  { b with selection := .caret (Text.clamp b.text target), reveal := some reveal }

def showWarning (b : Buffer) (message : String) : Buffer :=
  { b with warnings := b.warnings ++ [message] }

def run (b : Buffer) : Command → Buffer
  | .indentLines => b.indentLines
  | .outdentLines => b.outdentLines
  | .insertTab | .defaultTab => b.insertTab
  | .moveCursorRight => b.moveCursorRight
  | .setCursor target reveal => b.setCursor target reveal
  | .showWarning message => b.showWarning message

def runAll (b : Buffer) (commands : List Command) : Buffer := commands.foldl run b

def trigger (b : Buffer) (settings : Settings) : Outcome × Buffer :=
  let outcome := Outcome.ofTrigger settings (some b.view)
  (outcome, b.runAll outcome.commands)

def triggerClosed (b : Buffer) (settings : Settings) : Outcome × Buffer :=
  let outcome := Outcome.ofTrigger settings none
  (outcome, b.runAll outcome.commands)

end Buffer

end TabKey
