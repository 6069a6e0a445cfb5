import LayeredConfig.Fault

/-! Nested tables, and their flattening into one map with dotted keys. -/

namespace LayeredConfig.Document

/-- The key of an entry below a prefix. At the top, where the prefix is empty, no dot is
written. -/
def fullKey (above key : Text) : Text := if above.isEmpty then key else above ++ .scalar '.' :: key

/-- Adds the entries below a prefix to a flat map. A table is flattened on its own first. -/
def flattenOnto (flat : OrderedMap Value) (above : Text) :
    List (Value × Value) → Except Fault (OrderedMap Value)
  | [] => .ok flat
  | (key, .map entries) :: rest =>
    match key.plain? with
    | none => .error .tooManyDigits
    | some key => do
      let inner ← flattenOnto .empty (fullKey above key) entries
      flattenOnto (flat.update inner) above rest
  | (key, value) :: rest =>
    match key.plain?, value with
    | none, _ => .error .tooManyDigits
    | some key, .list _ => .error (.arrayValue (fullKey above key))
    | some key, value => flattenOnto (flat.insert (fullKey above key) value) above rest

/-- One entry for each value that is not a table, in the order of the document. A repeated full
key keeps its first place and its last value; an array is refused. -/
def flatten (above : Text) (entries : List (Value × Value)) : Except Fault (OrderedMap Value) :=
  flattenOnto .empty above entries

end LayeredConfig.Document
