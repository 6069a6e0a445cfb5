import LayeredConfig.ApplicationName
import LayeredConfig.ByteStream
import LayeredConfig.Log.Lines
import LayeredConfig.Observer
import LayeredConfig.Store.View

/-! The settings of a store, read and written through their checks. What is read is checked
again, defaults included, so that values from files keep the same rules as values set in
code. -/

namespace LayeredConfig

namespace Kind

def check (kind : Kind) (property : Text) (v : Value) : Except Fault Value :=
  match kind with
  | applicationName => (ApplicationName.check v).map .text
  | nonEmptyText | base64 => (Check.nonEmpty property v).map .text
  | notNullText => (Check.notNull property v).map .text
  | positive | positiveLong => (Check.number .positive property v).map .int
  | nonNegative => (Check.number .nonNegative property v).map .int
  | retryTimeout => (Check.number .retryTimeout property v).map .int
  | truth => (Check.truth property v).map .bool

def read (kind : Kind) (s : Store) (env : Environment) (key : Text) (default? : Option Value) :
    Except Fault Value :=
  match kind with
  | applicationName | nonEmptyText | base64 | notNullText => s.getTextValue env key default?
  | positive | positiveLong | nonNegative | retryTimeout => do
    return ((← s.getInteger key default?).map Value.int).getD .null
  | truth => do return ((← s.getTruth key default?).map Value.bool).getD .null

end Kind

namespace Store

def get (s : Store) (env : Environment) (setting : Setting) : Except Fault Value := do
  setting.kind.check setting.key (← setting.kind.read s env setting.key setting.default?)

def set (s : Store) (setting : Setting) (v : Value) : Except Fault Store := do
  return s.put setting.key (← setting.kind.check setting.key v)

/-- A duration is given in any unit and kept in milliseconds. -/
def setRollbackTime (s : Store) (duration : Value) (unit : TimeUnit) : Except Fault Store := do
  let key := Setting.transactionRollbackTime.key
  s.putNumber .positive key (.int (unit.toMillis (← Check.integer key duration)))

def asText : Value → Text
  | .text t => t
  | _ => []

/-- The address of the application's node in the coordination tree. -/
def connectString (s : Store) (env : Environment) : Except Fault Text := do
  let servers ← s.get env .instanceZookeepers
  let name ← s.get env .applicationName
  return asText servers ++ .scalar '/' :: asText name

/-! ### Metrics -/

def metrics (s : Store) (env : Environment) : Except Fault (List UInt8) := do
  Base64.decode (asText (← s.get env .metricsYamlBase64))

/-- Stores what a stream holds, on one line of base 64. -/
def setMetrics (s : Store) (stream : ByteStream) : Except Fault Store := do
  return s.put Setting.metricsYamlBase64.key (.text (Base64.encode (← stream.read)))

/-! ### Observers -/

def isObserverIndex (key : Text) : Bool :=
  match Text.dropPrefix? Setting.observerSpace key with
  | none | some [] => false
  | some index => index.all CodePoint.isDecimalDigit

def observerKey (index : Nat) : Text := Setting.observerSpace ++ Numeral.ofNat index

def observer (s : Store) (env : Environment) (key : Text) : Except Fault Observer := do
  match ← s.getText env key none with
  | none => .error (.lacks (Value.typeName .null) "strip")
  | some t => Observer.decode key t

/-- The observers of all keys of theirs, numbered or not, in the order of the keys. -/
def observers (s : Store) (env : Environment) : Except Fault (List Observer) :=
  (s.keys.filter fun k => Setting.observerSpace.isPrefixOf k).mapM (s.observer env)

def clearObservers (s : Store) : Store := (s.keys.filter isObserverIndex).foldl erase s

/-- Something offered as an observer, which may be a value of another type. -/
inductive Offered where
  | observer (o : Observer)
  | other (typeName : Text)

/-- Things offered one after the other, and what goes wrong after the last, if anything. -/
structure Offer where
  items : List Offered
  failure : Option Fault

/-- Writes observers from an index on, up to the first thing that is none. -/
def putObservers (s : Store) (index : Nat) :
    List Offered → Option Fault → Store × Except Fault Unit
  | [], none => (s, .ok ())
  | [], some fault => (s, .error fault)
  | .other typeName :: _, _ => (s, .error (.lacks typeName "parameters"))
  | .observer o :: rest, failure =>
    putObservers (s.put (observerKey index) (.text o.encode)) (index + 1) rest failure

/-- Replaces the numbered observers. The old ones are gone even if the new ones are at fault. -/
def replaceObservers (s : Store) (offer : Offer) : Store × Except Fault Unit :=
  putObservers s.clearObservers 0 offer.items offer.failure

/-! ### The whole configuration -/

end Store

inductive Reading where
  | setting (s : Setting)
  | connectString
  | metrics
  | observers
deriving DecidableEq, Repr

namespace Reading

def all : List Reading := [
  .setting .accumuloClasspath, .setting .accumuloInstance, .setting .accumuloPassword,
  .setting .accumuloTable, .setting .accumuloUser, .setting .accumuloZookeepers,
  .setting .adminClass, .connectString, .setting .applicationName, .setting .clientClass,
  .setting .clientRetryTimeout, .setting .instanceZookeepers, .setting .loaderQueueSize,
  .setting .loaderThreads, .metrics, .setting .metricsYamlBase64, .setting .miniClass,
  .setting .miniDataDir, .setting .miniStartAccumulo, .observers, .setting .oracleInstances,
  .setting .oracleMaxMemory, .setting .oracleNumCores, .setting .transactionRollbackTime,
  .setting .workerInstances, .setting .workerMaxMemory, .setting .workerNumCores,
  .setting .workerThreads, .setting .zookeeperTimeout]

def run (s : Store) (env : Environment) : Reading → Except Fault Unit
  | setting x => (s.get env x).map fun _ => ()
  | connectString => (s.connectString env).map fun _ => ()
  | metrics => (s.metrics env).map fun _ => ()
  | observers => (s.observers env).map fun _ => ()

end Reading

namespace Store

/-- Reads everything and reports the first fault. -/
def validate (s : Store) (env : Environment) : Except Fault Unit :=
  Reading.all.forM (Reading.run s env)

def log (s : Store) : Logged Unit :=
  s.keys.forM fun k =>
    match (s.value k).plain? with
    | some t => .write .configuration .info (k ++ (" = " : Text) ++ t)
    | none => .quiet (.error .tooManyDigits)

end Store

/-- Writes every default of the registry through a view. -/
def View.putDefaults (v : View) (s : Store) : Store :=
  s.putAll (Setting.defaults.map fun e => (v.fullKey e.1, e.2))

end LayeredConfig
