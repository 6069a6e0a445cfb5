import LayeredConfig.Log.JsonText
import LayeredConfig.Log.Lines
import LayeredConfig.Log.Template

/-! Log records: what is logged, where and how severe it is, with extra members by name. A
record is shown plainly or as one JSON object; the time of the plain form is put in front by who
writes it. -/

namespace LayeredConfig

structure Incident where
  kind : Text
  text : Text
deriving DecidableEq, Repr

def Incident.shown (i : Incident) : Text :=
  if i.text.isEmpty then i.kind else i.kind ++ (": " : Text) ++ i.text

/-- Members are values, because an extra may stand in for one of them. -/
structure Record where
  logger : Value
  severity : Value
  template : Value
  arguments : Template.Arguments
  moduleName : Value
  function : Value
  line : Value
  incident : Option Incident
  extras : OrderedMap Value

namespace Record

inductive Flaw where
  | template (flaw : Template.Flaw)
  | json (flaw : JsonText.Flaw)
  | tooManyDigits
deriving DecidableEq, Repr

def Flaw.message : Flaw → Text
  | template flaw => flaw.message
  | json flaw => flaw.message
  | tooManyDigits => Fault.tooManyDigits.message

/-- The logger that all others are below. -/
def rootLogger : Text := "fluo"

def loggerName (name : Text) : Text :=
  if isWithin rootLogger name then name else rootLogger ++ .scalar '.' :: name

/-- The name of the file at the end of a path, without what follows its last dot. Dots in front
do not count. -/
def moduleOf (path : Text) : Text :=
  let base := (path.reverse.takeWhile (· ≠ .scalar '/')).reverse
  let stem := (base.reverse.dropWhile (· ≠ .scalar '.')).drop 1
  if stem.all (· = .scalar '.') then base else stem.reverse

/-- Names that belong to the record itself and are not shown among the extras. -/
def reservedNames : List Text :=
  ["name", "msg", "args", "levelname", "levelno", "pathname", "filename", "module", "exc_info",
    "exc_text", "stack_info", "lineno", "funcName", "created", "msecs", "relativeCreated",
    "thread", "threadName", "processName", "process", "taskName", "message"]

/-- Sets an extra. A reserved name changes the record where the record shows it. -/
def set (r : Record) (name : Text) (v : Value) : Record :=
  if name = ("name" : Text) then { r with logger := v }
  else if name = ("msg" : Text) then { r with template := v }
  else if name = ("args" : Text) then { r with arguments := .single v }
  else if name = ("levelname" : Text) then { r with severity := v }
  else if name = ("module" : Text) then { r with moduleName := v }
  else if name = ("funcName" : Text) then { r with function := v }
  else if name = ("lineno" : Text) then { r with line := v }
  else if name = ("exc_info" : Text) then
    { r with incident := if v.isVoid then none else r.incident }
  else if reservedNames.contains name then r
  else { r with extras := r.extras.insert name v }

def plain (v : Value) : Except Flaw Text :=
  match v.plain? with
  | some t => .ok t
  | none => .error .tooManyDigits

/-- The message: the template filled in. -/
def message (r : Record) : Except Flaw Text := do
  (Template.fill (← plain r.template) r.arguments).mapError .template

def plainText (r : Record) : Except Flaw Text := do
  let message ← r.message
  let head := (← plain r.severity) ++ .scalar ' ' :: (← plain r.logger) ++ .scalar '.' ::
    (← plain r.function) ++ (": " : Text) ++ message
  return head ++ match r.incident with
    | none => []
    | some i => .scalar '\n' :: i.shown

def timeName : Text := "timestamp"

def coreMembers (message : Text) (r : Record) : List (Text × Value) :=
  [("level", r.severity), ("logger", r.logger), ("message", .text message),
    ("module", r.moduleName), ("function", r.function), ("line", r.line)]

def incidentMember (r : Record) : List (Text × Value) :=
  r.incident.toList.map fun i => ("exception", .text i.shown)

/-- The members that show the record itself, in order. -/
def ownMembers (time : Binary64) (message : Text) (r : Record) : List (Text × Value) :=
  (timeName, .float time) :: (r.coreMembers message ++ r.incidentMember)

/-- The members in order, shown at a time. An extra named like a member takes its place. -/
def membersAt (time : Binary64) (r : Record) : Except Flaw (OrderedMap Value) := do
  return (OrderedMap.ofList (r.ownMembers time (← r.message))).update r.extras

def textAt (time : Binary64) (r : Record) : Except Flaw Text := do
  (JsonText.write (.ofOrderedMap (← r.membersAt time))).mapError .json

/-! What the time leaves open: it changes neither the other members nor whether the record can
be written, so none is as good as any. -/

def members (r : Record) : Except Flaw (OrderedMap Value) := do
  return (← r.membersAt .nan).erase timeName

def structuredText (r : Record) : Except Flaw Text := do
  let _ ← r.textAt .nan
  (JsonText.write (.ofOrderedMap (← r.members))).mapError .json

end Record

end LayeredConfig
