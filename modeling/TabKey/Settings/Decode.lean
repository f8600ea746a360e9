import TabKey.Settings
import TabKey.Settings.Fault
import TabKey.Toml.Document

/-! Settings read from TOML. Fields are checked in the order of their names and the first fault wins; a missing field
keeps its default. -/
namespace TabKey

structure Configuration where
  settings : Settings := {}
  indent : Indent := {}
deriving DecidableEq, Repr, Inhabited

namespace Settings

inductive Refusal
  | flaw (why : Toml.Flaw)
  | fault (why : Fault)
deriving Repr

def Refusal.message? : Refusal → Option String
  | flaw why => why.message?
  | fault why => why.message?

def count : Toml.Value → Except Fault Nat
  | .integer n =>
    if 0 ≤ n ∧ n < Nat.pow 2 64 then .ok n.toNat
    else if -(Nat.pow 2 63) ≤ n ∧ n < 0 then .error (.negative n .count)
    else .error (.wrongType (.integer n) .count)
  | v => .error (.wrongType v .count)

def flag : Toml.Value → Except Fault Bool
  | .boolean b => .ok b
  | v => .error (.wrongType v .flag)

/-- How a record is read: its name, its fields in order, and how each one is set. -/
structure Schema (α : Type) where
  name : String
  fields : List (String × (Toml.Value → α → Except Fault α))

namespace Schema

def set {α : Type} (schema : Schema α) (record : α) (entry : String × Toml.Value) :
    Except Fault α :=
  match schema.fields.lookup entry.1 with
  | some assign => assign entry.2 record
  | none => .error (.unknownField entry.1 (schema.fields.map (·.1)))

def ofTable {α : Type} (schema : Schema α) (record : α) (entries : List (String × Toml.Value)) :
    Except Fault α :=
  (entries.mergeSort fun a b => a.1 ≤ b.1).foldlM schema.set record

/-- The one key under which a date or time shows as a table. -/
def momentKey : String := "$__toml_private_datetime"

/-- Sets the fields of a table or of an array of values in the order of the fields. Values past the
last field are ignored. -/
def ofValue {α : Type} (schema : Schema α) (record : α) : Toml.Value → Except Fault α
  | .table entries => schema.ofTable record entries
  | .array items => (schema.fields.zip items).foldlM (fun r (field, v) => field.2 v r) record
  | .moment => .error (.unknownField momentKey (schema.fields.map (·.1)))
  | v => .error (.wrongType v (.record schema.name))

end Schema

def schema : Schema Settings where
  name := "SmartTabConfig"
  fields := [
    ("enable", fun v s => return { s with enable := ← flag v }),
    ("max-gap", fun v s => return { s with maxGap := ← count v }),
    ("search-lines", fun v s => return { s with searchLines := ← count v }),
    ("eager-jump-out", fun v s => return { s with eagerJumpOut := ← flag v })]

def indentSchema : Schema Indent where
  name := "IndentOptions"
  fields := [
    ("tab-width", fun v i => return { i with tabWidth := ← count v }),
    ("insert-spaces", fun v i => return { i with insertSpaces := ← flag v })]

def configurationSchema : Schema Configuration where
  name := "ConfigRaw"
  fields := [
    ("smart-tab", fun v c => return { c with settings := ← schema.ofValue {} v }),
    ("indent", fun v c => return { c with indent := ← indentSchema.ofValue {} v })]

def parse {α : Type} (schema : Schema α) (record : α) (text : String) : Except Refusal α := do
  let entries ← (Toml.parse text).mapError .flaw
  (schema.ofTable record entries).mapError .fault

def ofToml (text : String) : Except Refusal Settings := parse schema {} text

end Settings

def Indent.ofToml (text : String) : Except Settings.Refusal Indent :=
  Settings.parse Settings.indentSchema {} text

def Configuration.ofToml (text : String) : Except Settings.Refusal Configuration :=
  Settings.parse Settings.configurationSchema {} text

end TabKey
