import TabKey.Invocation
import TabKey.Invocation.Location

/-! Reading a command line, one level at a time. An option without its value waits for the next argument, and it
counts only when something else comes along or the level ends. -/
namespace TabKey.Invocation

inductive Level
  | top | tab | format
deriving DecidableEq, Repr

inductive Item
  | verbose | log | config | help | file | cursor | printAction | noEditor | inPlace
deriving DecidableEq, Repr

namespace Item

def takesValue : Item → Bool
  | log | config | file | cursor => true
  | verbose | help | printAction | noEditor | inPlace => false

def ofLong? (level : Level) (name : String) : Option Item :=
  match level, name with
  | _, "log" => some log
  | _, "config" => some config
  | _, "help" => some help
  | .tab, "cursor" => some cursor
  | .tab, "print-action" => some printAction
  | .tab, "no-editor" => some noEditor
  | .format, "in-place" => some inPlace
  | _, _ => none

def ofShort? (level : Level) (name : Char) : Option Item :=
  match level, name with
  | _, 'v' => some verbose
  | _, 'c' => some config
  | _, 'h' => some help
  | .format, 'i' => some inPlace
  | _, _ => none

end Item

structure Given where
  verbosity : Option Nat := none
  log : Option String := none
  config : Option String := none
  file : Option String := none
  cursors : List Span := []
  printAction : Bool := false
  noEditor : Bool := false
  inPlace : Bool := false
deriving DecidableEq, Repr

namespace Given

def maxVerbosity : Nat := 255

def path (old new : Option String) : Except UsageFault (Option String) :=
  match new, old with
  | none, _ => .error .invalidValue
  | some _, some _ => .error .argumentConflict
  | some p, none => if p.isEmpty then .error .invalidValue else .ok (some p)

def switch (old : Bool) : Except UsageFault Bool :=
  if old then .error .argumentConflict else .ok true

def add (g : Given) (item : Item) (value : Option String) : Except UsageFault Given :=
  match item with
  | .verbose => .ok { g with verbosity := some (min (g.verbosity.getD 0 + 1) maxVerbosity) }
  | .log => return { g with log := ← path g.log value }
  | .config => return { g with config := ← path g.config value }
  | .file => return { g with file := ← path g.file value }
  | .help => .error .displayHelp
  | .printAction => return { g with printAction := ← switch g.printAction }
  | .noEditor => return { g with noEditor := ← switch g.noEditor }
  | .inPlace => return { g with inPlace := ← switch g.inPlace }
  | .cursor =>
    match value.map fun v => Location.span v.toList with
    | none => .error .invalidValue
    | some (.ok s) => .ok { g with cursors := g.cursors ++ [s] }
    | some (.error _) => .error .valueValidation

end Given

structure Progress where
  given : Given := {}
  /-- The latest option or file, which does not count yet, with its value once it has one. -/
  pending : Option (Item × Option String) := none
deriving DecidableEq, Repr

namespace Progress

def settle (p : Progress) : Except UsageFault Progress :=
  match p.pending with
  | none => .ok p
  | some (item, value) => return { given := ← p.given.add item value }

def take (p : Progress) (item : Item) (value : Option String) : Except UsageFault Progress := do
  let p ← p.settle
  return { p with given := ← p.given.add item value }

def hold (p : Progress) (item : Item) (value : Option String) : Except UsageFault Progress := do
  return { ← p.settle with pending := some (item, value) }

def isWaiting (p : Progress) : Bool := p.pending.any (·.2.isNone)

def hasFile (p : Progress) : Bool := p.given.file.isSome || p.pending.any (·.1 = .file)

/-- An option that takes a value: an attached one counts at once, otherwise the option waits. -/
def option (p : Progress) (item : Item) (attached : Option String) : Except UsageFault Progress :=
  match attached with
  | some value => p.take item (some value)
  | none => p.hold item none

def long (level : Level) (p : Progress) (arg : List Char) : Except UsageFault Progress :=
  let (name, attached) :=
    match Location.splitOnce? '=' arg with
    | some (name, value) => (name, some (String.ofList value))
    | none => (arg, none)
  match Item.ofLong? level (String.ofList name) with
  | none => .error .unknownArgument
  | some item =>
    if item.takesValue then p.option item attached
    else if attached.isSome then .error .tooManyValues
    else p.take item none

/-- What follows a short option in its argument is its value; an equals sign in front of it does
not count. -/
def attachedTo : List Char → Option String
  | [] => none
  | '=' :: value => some (String.ofList value)
  | value => some (String.ofList value)

def short (level : Level) (p : Progress) : List Char → Except UsageFault Progress
  | [] => .ok p
  | name :: rest =>
    match Item.ofShort? level name with
    | none => .error .unknownArgument
    | some item =>
      if item.takesValue then p.option item (attachedTo rest)
      else do short level (← p.take item none) rest

end Progress

inductive Subcommand
  | run (level : Level)
  | help
deriving DecidableEq, Repr

def Subcommand.ofName? : String → Option Subcommand
  | "tab" => some (.run .tab)
  | "format" => some (.run .format)
  | "help" => some .help
  | _ => none

/-- An argument that is no option. A subcommand takes one, its file; at the top level it has to be
a subcommand, which after `--` it can no longer be. -/
def positional (level : Level) (trailing : Bool) (p : Progress) (arg : String) :
    Except UsageFault Progress :=
  match level with
  | .top =>
    if trailing && (Subcommand.ofName? arg).isSome then .error .unknownArgument
    else .error .invalidSubcommand
  | _ => if p.hasFile then .error .unknownArgument else p.hold .file (some arg)

def argument (level : Level) (p : Progress) (arg : String) : Except UsageFault Progress :=
  match arg.toList with
  | '-' :: '-' :: rest => p.long level rest
  | '-' :: c :: rest => p.short level (c :: rest)
  | _ =>
    match p.pending with
    | some (item, none) => .ok { p with pending := some (item, some arg) }
    | _ => positional level false p arg

def helpOn : List String → UsageFault
  | [] => .displayHelp
  | [name] => if (Subcommand.ofName? name).isSome then .displayHelp else .invalidSubcommand
  | _ => .invalidSubcommand

def read (level : Level) :
    (trailing : Bool) → Progress → List String →
      Except UsageFault (Progress × Option (Level × List String))
  | _, p, [] => .ok (p, none)
  | true, p, arg :: rest => do read level true (← positional level true p arg) rest
  | false, p, arg :: rest =>
    match if level = .top && !p.isWaiting then Subcommand.ofName? arg else none with
    | some .help => .error (helpOn rest)
    | some (.run inner) => .ok (p, some (inner, rest))
    | none =>
      if arg = "--" then read level true p rest
      else do read level false (← argument level p arg) rest

def taskOf (level : Level) (g : Given) : Except UsageFault Task :=
  match level with
  | .format =>
    match g.file with
    | some file => .ok (.format ⟨file, g.inPlace⟩)
    | none => .error .missingRequiredArgument
  | _ =>
    if g.noEditor && (g.file.isSome || !g.cursors.isEmpty) then .error .argumentConflict
    else if !g.noEditor && g.file.isNone then .error .missingRequiredArgument
    else .ok (.tab ⟨g.file, g.cursors, g.printAction, g.noEditor⟩)

/-- Reads a command line without the program's name. The subcommand's faults come before those of
a pending option in front of it, and what it is given wins over what is given in front of it. -/
def parse (args : List String) : Except UsageFault Invocation := do
  let (outer, sub) ← read .top false {} args
  match sub with
  | none =>
    let outer ← outer.settle
    .error (if outer.given = {} then .displayHelpOnMissingArgumentOrSubcommand
      else .missingSubcommand)
  | some (level, rest) =>
    let (inner, _) ← read level false {} rest
    let inner := (← inner.settle).given
    let task ← taskOf level inner
    let outer := (← outer.settle).given
    return {
      verbosity := (inner.verbosity.or outer.verbosity).getD 0
      log := inner.log.or outer.log
      config := inner.config.or outer.config
      task }

end TabKey.Invocation
