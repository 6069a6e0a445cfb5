import LayeredConfig.Value

/-! Tables under construction. How a table came about decides what may still be added to it. -/

namespace LayeredConfig.Toml

/-- How a table came about: on the way to another table, by a header of its own, on the way of a
dotted key, or whole, written inside braces. -/
inductive Origin where
  | implied
  | declared
  | dotted
  | sealed
deriving DecidableEq, Repr

inductive Node where
  | value (v : Value)
  | table (origin : Origin) (entries : List (Text × Node))
  /-- An array of tables: those that are finished, and the one that is open. -/
  | tables (finished : List (List (Text × Node))) (entries : List (Text × Node))

abbrev Entries := List (Text × Node)

mutual

/-- The finished value of a node. -/
def Node.toValue : Node → Value
  | .value v => v
  | .table _ entries => .map (entryValues entries)
  | .tables finished entries => .list (tableValues finished ++ [.map (entryValues entries)])

def entryValues : List (Text × Node) → List (Value × Value)
  | [] => []
  | (k, n) :: rest => (.text k, n.toValue) :: entryValues rest

def tableValues : List (List (Text × Node)) → List Value
  | [] => []
  | es :: rest => .map (entryValues es) :: tableValues rest

end

namespace Entries

/-- Replaces the node of a key, or adds one at the end. -/
def alter (key : Text) (f : Option Node → Option Node) : Entries → Option Entries
  | [] => (f none).map fun n => [(key, n)]
  | (k, n) :: rest =>
    if k = key then (f (some n)).map fun n => (k, n) :: rest
    else (alter key f rest).map ((k, n) :: ·)

/-- Changes the entries of the table at a path of headers. Tables on the way are made where
there are none, and of an array of tables the open one is meant. -/
def within (change : Entries → Option Entries) : List Text → Entries → Option Entries
  | [], es => change es
  | key :: path, es => alter key (fun
    | none => (within change path []).map (Node.table .implied)
    | some (.table .sealed _) => none
    | some (.table origin inner) => (within change path inner).map (Node.table origin)
    | some (.tables finished inner) => (within change path inner).map (Node.tables finished)
    | some (.value _) => none) es

def declare (key : Text) : Entries → Option Entries :=
  alter key fun
    | none => some (.table .declared [])
    | some (.table .implied inner) => some (.table .declared inner)
    | some _ => none

def declareNext (key : Text) : Entries → Option Entries :=
  alter key fun
    | none => some (.tables [] [])
    | some (.tables finished inner) => some (.tables (finished ++ [inner]) [])
    | some _ => none

/-- Adds a node under a dotted key. Tables on the way must be of the same making. -/
def add (node : Node) : List Text → Entries → Option Entries
  | [], _ => none
  | [key], es => alter key (fun | none => some node | some _ => none) es
  | key :: path, es => alter key (fun
    | none => (add node path []).map (Node.table .dotted)
    | some (.table .implied inner) | some (.table .dotted inner) =>
      (add node path inner).map (Node.table .dotted)
    | some _ => none) es

end Entries

end LayeredConfig.Toml
