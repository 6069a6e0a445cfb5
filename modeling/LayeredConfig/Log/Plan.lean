import LayeredConfig.Field
import LayeredConfig.FileTree
import LayeredConfig.Log.Record

/-! How a program logs: from which severity on, and to which file in which form. The console is
always logged to. -/

namespace LayeredConfig

structure LogPlan where
  level : Severity
  file : Option Text
  isStructured : Bool
deriving DecidableEq, Repr

namespace LogPlan

def severityPath : List Value := [.text "log_level"]
def filePath : List Value := [.text "log_file"]
def structurePath : List Value := [.text "structured_logging"]

def unknownSeverity : Flaw :=
  Field.flaw severityPath "enum"
    "Input should be 'DEBUG', 'INFO', 'WARNING', 'ERROR' or 'CRITICAL'"

def severityOf (v : Value) : Field.Reading Severity :=
  match (Field.text severityPath v).toOption.bind Severity.ofName? with
  | some s => .ok s
  | none => .error [unknownSeverity]

def fileOf (v : Value) : Field.Reading (Option Text) :=
  if v.isNull then .ok none else (Field.text filePath v).map some

/-- Reads a plan from its fields. A field that is not given takes its default. -/
def ofFields (level file structured : Option Value) : Except Fault LogPlan :=
  let level := (level.map severityOf).getD (.ok .info)
  let file := (file.map fileOf).getD (.ok none)
  let structured := (structured.map (Field.truth structurePath)).getD (.ok false)
  match Field.both (Field.both level file) structured with
  | .ok ((level, file), structured) => .ok ⟨level, file, structured⟩
  | .error flaws => .error (.flawed flaws)

def target (p : LogPlan) : Option Path :=
  p.file.bind fun t => if t.isEmpty then none else some (Path.ofText t)

/-- Whether the log file can be opened. Directories above it are made where there are none. -/
def prepare (p : LogPlan) (files : Files) : Except Fault Unit :=
  match p.target with
  | none => .ok ()
  | some path =>
    match path.parent.flaw?, files path.parent with
    | some fault, _ => .error fault
    | none, .file _ => .error (.noLogDirectory path.parent.text .alreadyThere)
    | none, .failed .notFound => if path.flaw?.isNone then .ok () else .error .noLogFile
    | none, .failed failure => .error (.noLogDirectory path.parent.text failure)
    | none, .directory =>
      match path.flaw?, files path with
      | none, .file _ | none, .failed .notFound => .ok ()
      | _, _ => .error .noLogFile

def admits (p : LogPlan) (s : Severity) : Bool := p.level.rank ≤ s.rank

/-- What a log file holds, seen by its readers. -/
inductive Entry where
  | line (t : Text)
  | object (v : Value)

/-- What a record leaves in the log file. A record that cannot be shown or written leaves
nothing. -/
def entries (p : LogPlan) (r : Record) : List Entry :=
  if p.isStructured then
    match r.structuredText, r.members with
    | .ok _, .ok m => [.object (JsonText.reread (.ofOrderedMap m))]
    | _, _ => []
  else
    match r.plainText with
    | .ok t => if t.isScalar then (Text.lines (t ++ [.scalar '\n'])).map .line else []
    | .error _ => []

/-- What records, each shown at a time, add to a structured log file. A line feed ends each; one
that cannot be written adds nothing. -/
def structuredLog (records : List (Binary64 × Record)) : Text :=
  records.flatMap fun x =>
    match x.2.textAt x.1 with
    | .ok t => t ++ [.scalar '\n']
    | .error _ => []

structure Journal where
  path : Path
  entries : List Entry

/-- What records leave in the log file, if there is one. -/
def journal (p : LogPlan) (records : List (Severity × Record)) : Option Journal :=
  p.target.map fun path =>
    ⟨path, (records.filter fun r => p.admits r.1).flatMap fun r => p.entries r.2⟩

end LogPlan

end LayeredConfig
