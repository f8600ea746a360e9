import TabKey.Selection

namespace TabKey

inductive Severity
  | warn | info | debug | trace
deriving DecidableEq, Repr

namespace Severity

def ofVerbosity : Nat → Severity
  | 0 => warn
  | 1 => info
  | 2 => debug
  | _ => trace

def rank : Severity → Nat
  | warn => 0
  | info => 1
  | debug => 2
  | trace => 3

def name : Severity → String
  | warn => "WARN"
  | info => "INFO"
  | debug => "DEBUG"
  | trace => "TRACE"

end Severity

structure TabTask where
  file : Option String
  cursors : List Span
  printAction : Bool
  /-- Press it while no document is open. -/
  noEditor : Bool
deriving DecidableEq, Repr

structure FormatTask where
  file : String
  /-- Write the result back instead of printing it. -/
  inPlace : Bool
deriving DecidableEq, Repr

inductive Task
  | tab (task : TabTask)
  | format (task : FormatTask)
deriving DecidableEq, Repr

structure Invocation where
  verbosity : Nat
  log : Option String
  config : Option String
  task : Task
deriving DecidableEq, Repr

inductive UsageFault
  | missingRequiredArgument
  | argumentConflict
  | unknownArgument
  | invalidSubcommand
  /-- An option without its value, or an empty path. -/
  | invalidValue
  /-- A place that cannot be read. -/
  | valueValidation
  /-- A switch that was given a value. -/
  | tooManyValues
  | missingSubcommand
  | displayHelp
  /-- Nothing was asked for at all. -/
  | displayHelpOnMissingArgumentOrSubcommand
deriving DecidableEq, Repr

end TabKey
