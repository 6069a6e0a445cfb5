import LayeredConfig.Store.Reads

/-! Views of the keys below a prefix. A view has no content of its own: what is read or written
through it is read or written in the store, under the key with the prefix. -/

namespace LayeredConfig

structure View where
  space : Text
deriving DecidableEq, Repr

namespace View

def fullKey (v : View) (key : Text) : Text :=
  if key.isEmpty then v.space else v.space ++ .scalar '.' :: key

def localKey (v : View) (key : Text) : Text :=
  if key = v.space then [] else key.drop (v.space.length + 1)

def contains (v : View) (s : Store) (key : Text) : Bool := s.contains (v.fullKey key)

def value (v : View) (s : Store) (key : Text) : Value := s.value (v.fullKey key)

def put (v : View) (s : Store) (key : Text) (x : Value) : Store := s.put (v.fullKey key) x

def erase (v : View) (s : Store) (key : Text) : Store := s.erase (v.fullKey key)

def getText (v : View) (s : Store) (env : Environment) (key : Text) (default? : Option Value) :
    Except Fault (Option Text) := s.getText env (v.fullKey key) default?

def getInteger (v : View) (s : Store) (key : Text) (default? : Option Value) :
    Except Fault (Option Int) := s.getInteger (v.fullKey key) default?

def getTruth (v : View) (s : Store) (key : Text) (default? : Option Value) :
    Except Fault (Option Bool) := s.getTruth (v.fullKey key) default?

def keys (v : View) (s : Store) : List Text := (s.keysWithin v.space).map v.localKey

def isEmpty (v : View) (s : Store) : Bool := (v.keys s).isEmpty

def resolved (v : View) (s : Store) : OrderedMap Value :=
  .ofList ((v.keys s).map fun k => (k, v.value s k))

end View

def applicationView : View := ⟨Setting.applicationSpace⟩

end LayeredConfig
