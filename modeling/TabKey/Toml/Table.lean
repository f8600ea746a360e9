import TabKey.Toml.Value

/-! A document under construction. Each table remembers how it came to be, which decides who may still add to it. -/
namespace TabKey.Toml

inductive Origin
  /-- A header passed through it. -/
  | implied
  /-- Dotted keys began it. -/
  | dotted
  /-- A header named it. -/
  | defined
deriving DecidableEq, Repr

inductive Node
  /-- A finished value, inline tables and arrays included. -/
  | leaf (value : Value)
  | table (origin : Origin) (entries : List (String × Node))
  /-- The tables of one repeated header, the latest first. -/
  | series (tables : List (List (String × Node)))

abbrev Entries := List (String × Node)

namespace Entries

def put (key : String) (node : Node) : Entries → Entries
  | [] => [(key, node)]
  | (k, n) :: rest => if k = key then (key, node) :: rest else (k, n) :: put key node rest

/-- Changes the table that a header path leads to. Tables missing on the way are implied, and a
repeated header stands for its latest table. -/
def update (change : Entries → Except Flaw Entries) :
    (path : List String) → Entries → Except Flaw Entries
  | [], entries => change entries
  | key :: path, entries =>
    match entries.lookup key with
    | none => do return put key (.table .implied (← update change path [])) entries
    | some (.table origin sub) => do
      return put key (.table origin (← update change path sub)) entries
    | some (.series (latest :: older)) => do
      return put key (.series ((← update change path latest) :: older)) entries
    | some _ => .error .grammar

/-- A header names a table, which must be new or only implied so far, and fills it. -/
def define (key : String) (fill : Entries → Except Flaw Entries) (entries : Entries) :
    Except Flaw Entries :=
  match entries.lookup key with
  | none => do return put key (.table .defined (← fill [])) entries
  | some (.table .implied sub) => do return put key (.table .defined (← fill sub)) entries
  | some _ => .error .grammar

def append (key : String) (table : Entries) (entries : Entries) : Except Flaw Entries :=
  match entries.lookup key with
  | none => .ok (put key (.series [table]) entries)
  | some (.series tables) => .ok (put key (.series (table :: tables)) entries)
  | some _ => .error .grammar

/-- Gives a dotted key its value. The last part must be new, in a table that takes it: the one at
hand for a plain key, one that dotted keys began otherwise. -/
def assign (value : Value) :
    (takes : Bool) → (path : List String) → Entries → Except Flaw Entries
  | _, [], _ => .error .grammar
  | takes, [key], entries =>
    if takes && (entries.lookup key).isNone then .ok (put key (.leaf value) entries)
    else .error .grammar
  | _, key :: path, entries =>
    match entries.lookup key with
    | none => do return put key (.table .dotted (← assign value true path [])) entries
    | some (.table .dotted sub) => do
      return put key (.table .dotted (← assign value true path sub)) entries
    | some (.table .implied sub) => do
      return put key (.table .implied (← assign value false path sub)) entries
    | some (.series (latest :: older)) => do
      return put key (.series ((← assign value false path latest) :: older)) entries
    | some _ => .error .grammar

end Entries

mutual

def Node.value : Node → Value
  | .leaf value => value
  | .table _ entries => .table (Entries.values entries)
  | .series tables => .array (seriesValues tables).reverse

def Entries.values : List (String × Node) → List (String × Value)
  | [] => []
  | (key, node) :: rest => (key, node.value) :: Entries.values rest

def seriesValues : List (List (String × Node)) → List Value
  | [] => []
  | entries :: rest => .table (Entries.values entries) :: seriesValues rest

end

end TabKey.Toml
