import TabKey.Invocation.Reading
import TabKey.Program.Host
import TabKey.Report
import TabKey.Script.Reindent
import TabKey.Settings.Decode

/-! The command line program. The log is opened first, then the configuration is read, then the task is done; the
first failure ends the run. -/
namespace TabKey.Program

inductive Failure
  | openLog (path : String)
  | loadConfig
  | read (path : String)
  | write (path : String)
deriving DecidableEq, Repr

def Failure.message : Failure → String
  | openLog path => "failed to open log file " ++ path
  | loadConfig => "failed to load config"
  | read path => "failed to read " ++ path
  | write path => "failed to write " ++ path

inductive Status
  | success | failure | usage
deriving DecidableEq, Repr

def Status.code : Status → Nat
  | success => 0
  | failure => 1
  | usage => 2

structure Record where
  /-- The part of the program that speaks. -/
  source : String
  severity : Severity
  message : String
deriving DecidableEq, Repr

def Record.text (r : Record) : String := r.source ++ " [" ++ r.severity.name ++ "] " ++ r.message

section
variable {m : Type → Type} [Monad m]

abbrev Run (m : Type → Type) := ExceptT Failure m

def log (host : Host m) (i : Invocation) (r : Record) : Run m Unit := do
  if r.severity.rank ≤ (Severity.ofVerbosity i.verbosity).rank then
    let line := (← host.now) ++ " " ++ r.text
    match i.log with
    | some path => let _ ← host.append path (line ++ "\n")
    | none => host.complain line

def openLog (host : Host m) (i : Invocation) : Run m Unit := do
  match i.log with
  | some path => if !(← host.append path "") then throw (.openLog path)
  | none => return

def loadConfig (host : Host m) (i : Invocation) : Run m Configuration := do
  match i.config with
  | none => return {}
  | some path =>
    match (← host.read path).map Configuration.ofToml with
    | some (.ok c) => return c
    | _ => throw .loadConfig

def readText (host : Host m) (path : String) : Run m (List Char) := do
  match ← host.read path with
  | some text => return text.toList
  | none => throw (.read path)

def startBuffer (text : List Char) (cursors : List Span) (c : Configuration) : Buffer :=
  { text
    selection := (Selection.ofSpans? cursors).getD (.caret .origin)
    indent := c.indent }

def pressed (host : Host m) (t : TabTask) (c : Configuration) : Run m (Outcome × Buffer) := do
  match t.file with
  | some path =>
    if t.noEditor then return (startBuffer [] [] c).triggerClosed c.settings
    else return (startBuffer (← readText host path) t.cursors c).trigger c.settings
  | none => return (startBuffer [] [] c).triggerClosed c.settings

def shown (b : Buffer) : String :=
  let text := if b.text.getLast? = some '\n' then b.text else b.text ++ ['\n']
  let cursor (s : Span) : List Char := "cursor ".toList ++ Location.ofSpan s ++ ['\n']
  String.ofList (text ++ b.selection.spans.flatMap cursor)

def runTab (host : Host m) (i : Invocation) (t : TabTask) (c : Configuration) : Run m Unit := do
  let (outcome, b) ← pressed host t c
  for warning in b.warnings do
    log host i ⟨"tabout::buffer", .info, "warning: " ++ warning⟩
  log host i ⟨"tabout", .info, "tab: " ++ Report.logOutcome outcome⟩
  if t.printAction then host.print ((Report.ofTrigger outcome b).pretty 0 ++ "\n")
  else
    for warning in b.warnings do host.complain ("warning: " ++ warning)
    if outcome ≠ .noEditor then host.print (shown b)

def runFormat (host : Host m) (i : Invocation) (t : FormatTask) (c : Configuration) :
    Run m Unit := do
  let text ← readText host t.file
  let edits := Script.editsOf c.indent text
  log host i
    ⟨"tabout", .info, "format " ++ t.file ++ ": " ++ toString edits.length ++ " edits"⟩
  let result := String.ofList (Script.Edit.applyAll edits text)
  if t.inPlace then
    if !(← host.write t.file result) then throw (.write t.file)
  else host.print result

def runTask (host : Host m) (i : Invocation) : Run m Unit := do
  openLog host i
  let c ← loadConfig host i
  match i.task with
  | .tab t => runTab host i t c
  | .format t => runFormat host i t c

def usage : String :=
  "Context-sensitive tab key: indent, jump out of or into delimiter pairs\n\n" ++
  "Usage: tabout [-v]... [--log FILE] [-c FILE] tab [FILE] [--cursor RANGE]... " ++
  "[--print-action] [--no-editor]\n" ++
  "       tabout [-v]... [--log FILE] [-c FILE] format FILE [-i]\n"

def run (host : Host m) (args : List String) : m Status := do
  match Invocation.parse args with
  | .error .displayHelp =>
    host.print usage
    return .success
  | .error _ =>
    host.complain usage
    return .usage
  | .ok i =>
    match ← (runTask host i).run with
    | .ok () => return .success
    | .error e =>
      host.complain ("Error: " ++ e.message)
      return .failure

end

end TabKey.Program
