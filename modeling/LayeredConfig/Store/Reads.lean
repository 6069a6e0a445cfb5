import LayeredConfig.Check
import LayeredConfig.Store.References

/-! Reading values at their types. A value that is null counts as not set; then the default is
read, and without one a strict store reports the key. -/

namespace LayeredConfig

def trueWords : List Text := ["true", "t", "yes", "y", "on", "1"]
def falseWords : List Text := ["false", "f", "no", "n", "off", "0"]

def truthOfWord? (word : Text) : Option Bool :=
  if trueWords.contains word then some true
  else if falseWords.contains word then some false
  else none

namespace Value

def toInteger (key : Text) (v : Value) : Except Fault Int :=
  match v with
  | .bool _ => .error (.notInteger key v)
  | .int n => .ok n
  | v =>
    match v.plain?.bind Numeral.toInt? with
    | some n => .ok n
    | none => .error (.notInteger key v)

def toTruth (key : Text) (v : Value) : Except Fault Bool :=
  match v with
  | .bool b => .ok b
  | v =>
    match v.plain? with
    | none => .error .tooManyDigits
    | some t =>
      match truthOfWord? t.trim.lower with
      | some b => .ok b
      | none => .error (.notTruth key v)

end Value

namespace Store

/-- The value of a key, or what stands in for it. Null is left where nothing does. -/
def raw (s : Store) (key : Text) (default? : Option Value) : Except Fault Value :=
  match s.value key with
  | .null =>
    match default? with
    | some v => .ok v
    | none => if s.isStrict then .error (.missingProperty key) else .ok .null
  | v => .ok v

/-- Reads a value that is not null. -/
def readWith {α : Type} (s : Store) (key : Text) (default? : Option Value)
    (convert : Value → Except Fault α) : Except Fault (Option α) := do
  match ← s.raw key default? with
  | .null => return none
  | v => return some (← convert v)

def getText (s : Store) (env : Environment) (key : Text) (default? : Option Value) :
    Except Fault (Option Text) :=
  s.readWith key default? fun v => do s.interpolate env (← v.settingText)

def getInteger (s : Store) (key : Text) (default? : Option Value) : Except Fault (Option Int) :=
  s.readWith key default? (Value.toInteger key)

def getTruth (s : Store) (key : Text) (default? : Option Value) : Except Fault (Option Bool) :=
  s.readWith key default? (Value.toTruth key)

def getNumber (s : Store) (rule : Rule) (key : Text) (default? : Option Value) :
    Except Fault Int := do
  Check.number rule key (((← s.getInteger key default?).map Value.int).getD .null)

def getTextValue (s : Store) (env : Environment) (key : Text) (default? : Option Value) :
    Except Fault Value := do
  return ((← s.getText env key default?).map Value.text).getD .null

def getNonEmpty (s : Store) (env : Environment) (key : Text) (default? : Option Value) :
    Except Fault Text := do
  Check.nonEmpty key (← s.getTextValue env key default?)

def putNumber (s : Store) (rule : Rule) (key : Text) (v : Value) : Except Fault Store := do
  return s.put key (.int (← Check.number rule key v))

def putNonEmpty (s : Store) (key : Text) (v : Value) : Except Fault Store := do
  return s.put key (.text (← Check.nonEmpty key v))

end Store

end LayeredConfig
