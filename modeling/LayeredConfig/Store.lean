import LayeredConfig.Setting

/-! The layered store. A store has one layer that is written to and source layers below it, the
first of which is the highest. The first layer that holds a key decides its value. -/

namespace LayeredConfig

abbrev Layer := OrderedMap Value

structure Store where
  written : Layer
  sources : List Layer
  /-- Whether reading a key that is not set is a fault where no default is given. -/
  isStrict : Bool

namespace Store

def empty (isStrict : Bool) : Store := ⟨.empty, [], isStrict⟩

def layers (s : Store) : List Layer := s.written :: s.sources

def findIn (key : Text) : List Layer → Option Value
  | [] => none
  | l :: ls => match l.get? key with
    | some v => some v
    | none => findIn key ls

def find? (s : Store) (key : Text) : Option Value := findIn key s.layers

/-- The raw value of a key, which is null where no layer holds it. -/
def value (s : Store) (key : Text) : Value := (s.find? key).getD .null

def contains (s : Store) (key : Text) : Bool := s.layers.any fun l => l.contains key

/-- The keys not seen before, each once. -/
def unseen (seen : List Text) : List Text → List Text
  | [] => []
  | k :: rest => if k ∈ seen then unseen seen rest else k :: unseen (k :: seen) rest

/-- All keys, each once, by layer and then as they were added. -/
def keys (s : Store) : List Text := unseen [] (s.layers.flatMap OrderedMap.keys)

def keysWithin (s : Store) (space : Text) : List Text := s.keys.filter (isWithin space)

def size (s : Store) : Nat := s.keys.length

def isEmpty (s : Store) : Bool := s.layers.all OrderedMap.isEmpty

/-- The keys with their raw values. -/
def resolved (s : Store) : Layer := .ofList (s.keys.map fun k => (k, s.value k))

def mapLayers (f : Layer → Layer) (s : Store) : Store :=
  { s with written := f s.written, sources := s.sources.map f }

def erase (s : Store) (key : Text) : Store := s.mapLayers fun l => l.erase key

/-- Writes to the top layer; writing null removes the key from every layer. -/
def put (s : Store) (key : Text) (v : Value) : Store :=
  if v.isNull then s.erase key else { s with written := s.written.insert key v }

/-- Empties every layer; the layers stay. -/
def clear (s : Store) : Store := s.mapLayers fun _ => .empty

def addLayer (s : Store) (l : Layer) : Store := { s with sources := s.sources ++ [l] }

def layerCount (s : Store) : Nat := s.sources.length + 1

/-- Writes only where no layer has a value. -/
def putDefault (s : Store) (key : Text) (v : Value) : Store :=
  if (s.value key).isNull then s.put key v else s

def putAll (s : Store) (entries : List (Text × Value)) : Store :=
  entries.foldl (fun s e => s.put e.1 e.2) s

def putDefaults (s : Store) : Store := s.putAll Setting.defaults

def defaults : Store := (empty false).putDefaults

/-- A strict store with one layer that holds what another store resolves to. -/
def flattened (s : Store) : Store := (empty true).putAll (s.keys.map fun k => (k, s.value k))

/-- A new store of the keys that begin like those of a client. -/
def clientStore (s : Store) : Store :=
  (empty false).putAll
    ((s.keys.filter fun k => Setting.clientSpace.isPrefixOf k).map fun k => (k, s.value k))

end Store

/-- An entry with its key written out plainly. -/
def Layer.entry (e : Value × Value) : Except Fault (Text × Value) :=
  match e.1.plain? with
  | some k => .ok (k, e.2)
  | none => .error .tooManyDigits

def Layer.ofEntries (entries : List (Value × Value)) : Except Fault Layer :=
  (entries.mapM Layer.entry).map OrderedMap.ofList

inductive Source where
  | entries (es : List (Value × Value))
  | store (s : Store)
  | other (typeName : Text)

namespace Source

def layer : Source → Except Fault Layer
  | entries es => Layer.ofEntries es
  | store s => .ok s.resolved
  | other typeName => .error (.unsupportedSource typeName)

end Source

def Value.settingText (v : Value) : Except Fault Text :=
  match v.settingText? with
  | some t => .ok t
  | none => .error .tooManyDigits

namespace Store

def add (s : Store) (source : Source) : Except Fault Store := source.layer.map s.addLayer

/-- The store with these source layers, the highest first. -/
def ofSources (isStrict : Bool) (sources : List Source) : Except Fault Store :=
  sources.foldlM add (empty isStrict)

end Store

/-- A map with every default of the registry written to it. -/
def Value.withDefaults (entries : List (Value × Value)) : List (Value × Value) :=
  Setting.defaults.foldl (fun es e => Value.writeEntry (.text e.1) e.2 es) entries

end LayeredConfig
