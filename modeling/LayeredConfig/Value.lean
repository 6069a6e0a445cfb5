import LayeredConfig.Binary64
import LayeredConfig.Calendar
import LayeredConfig.OrderedMap

/-! The values a configuration holds: scalars, lists and maps. -/

namespace LayeredConfig

inductive Value where
  | null
  | bool (b : Bool)
  | int (n : Int)
  | float (x : Binary64)
  | text (t : Text)
  | bytes (bs : List UInt8)
  | moment (m : Moment)
  | list (items : List Value)
  | map (entries : List (Value × Value))
deriving Inhabited

namespace Value

instance : Coe Text Value := ⟨.text⟩

def typeName : Value → Text
  | null => "NoneType"
  | bool _ => "bool"
  | int _ => "int"
  | float _ => "float"
  | text _ => "str"
  | bytes _ => "bytes"
  | moment m => m.typeName
  | list _ => "list"
  | map _ => "dict"

def isNull : Value → Bool
  | null => true
  | _ => false

/-- Null, false, zero and what is empty are void. -/
def isVoid : Value → Bool
  | null => true
  | bool b => !b
  | int n => n = 0
  | float (.finite _ m _) => m = 0
  | float _ => false
  | text t => t.isEmpty
  | bytes bs => bs.isEmpty
  | moment _ => false
  | list items => items.isEmpty
  | map entries => entries.isEmpty

/-- A number as a quotient with a sign: truth values count as zero and one. -/
def ratio? : Value → Option (Int × Nat)
  | bool b => some (if b then 1 else 0, 1)
  | int n => some (n, 1)
  | float (.finite s m q) =>
    let (num, den) := Binary64.ratio m q
    some (if s then -num else num, den)
  | _ => none

/-- Whether two values name the same entry of a map. Equal numbers do, whatever their type. -/
def isSameKey (a b : Value) : Bool :=
  match a, b with
  | null, null => true
  | text s, text t => s = t
  | bytes s, bytes t => s = t
  | moment s, moment t => s = t
  | float (.infinite s), float (.infinite t) => s = t
  | a, b =>
    match a.ratio?, b.ratio? with
    | some (m, d), some (n, e) => m * e = n * d
    | _, _ => false

/-- Map entries after a write: in place if the key is held, otherwise at the end. -/
def writeEntry (key value : Value) : List (Value × Value) → List (Value × Value)
  | [] => [(key, value)]
  | (k, v) :: rest =>
    if k.isSameKey key then (k, value) :: rest else (k, v) :: writeEntry key value rest

/-- The map with these entries; a repeated key keeps its first place and its last value. -/
def mapOf (entries : List (Value × Value)) : Value :=
  map (entries.foldl (fun es e => writeEntry e.1 e.2 es) [])

def ofOrderedMap (m : OrderedMap Value) : Value :=
  map (m.entries.map fun e => (text e.1, e.2))

end Value

end LayeredConfig
