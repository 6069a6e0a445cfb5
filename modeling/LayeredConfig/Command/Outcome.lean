import LayeredConfig.Command
import LayeredConfig.Loader
import LayeredConfig.Properties.Writer
import LayeredConfig.Text.Terminal
import LayeredConfig.Toml.Writer

/-! What commands print, log and end with. A fault ends a command with the exit code 1, and with a
line that tells it if it is of this library. What the runtime prints of any other fault is left out,
and so is the drawing of tables. -/

namespace LayeredConfig

structure Table where
  title : Text
  columns : List Text
  rows : List (List Text)
deriving DecidableEq, Repr

def Table.text (t : Table) : Text :=
  (t.title :: (t.columns :: t.rows).map (Text.join " | ")).flatMap fun l => l ++ [.scalar '\n']

/-- What an action prints, text by text, and why it refuses the configuration, if it does. -/
structure Printed where
  texts : List Text
  table : Option Table
  refusal : Option Text

namespace Printed

def ofText (t : Text) : Printed := ⟨[t], none, none⟩
def ofTable (t : Table) : Printed := ⟨[], some t, none⟩
def line (t : Text) : Printed := ofText (t ++ [.scalar '\n'])

end Printed

namespace Command

/-! ### Actions -/

def orTooLong {α : Type} (a : Option α) : Except Fault α :=
  match a with
  | some a => .ok a
  | none => .error .tooManyDigits

def showTable (s : Store) (env : Environment) (space : Option Text) : Except Fault Table := do
  let keys := match space with
    | some p => s.keysWithin p
    | none => s.keys
  let rows ← keys.mapM fun k => do return [k, (← s.getText env k none).getD []]
  return ⟨"Fluo Configuration", ["Key", "Value"], rows⟩

def settingRow (s : Setting) : Except Fault (List Text) := do
  let shown ← match s.default? with
    | some v => orTooLong v.plain?
    | none => .ok []
  return [s.key, s.kind.text, shown, s.description]

def settingsTable : Except Fault Table := do
  return ⟨"Fluo Settings", ["Key", "Kind", "Default", "Description"],
    ← Setting.all.mapM settingRow⟩

def printDefaults (format : Format) : Except Fault Printed :=
  let entries := Store.defaults.resolved.entries
  match format with
  | .properties =>
    (orTooLong (Properties.writeValues? (entries.map fun e => (.text e.1, e.2)))).map .ofText
  | .toml => (orTooLong (Toml.write? entries)).map .ofText
  | .table => settingsTable.map .ofTable

def printObservers (s : Store) (env : Environment) : Except Fault Printed := do
  match ← s.observers env with
  | [] => return .line "No observers configured"
  | os => return ⟨os.map fun o => o.listing ++ [.scalar '\n'], none, none⟩

def Action.run (action : Action) (s : Store) (env : Environment) : Logged Printed :=
  match action with
  | .show space => .quiet ((showTable s env space).map .ofTable)
  | .get key => .quiet do return .line ((← s.getText env key none).getD [])
  | .validate => .quiet do
    s.validate env
    return .line "VALID"
  | .check role => do
    if ← role.check ⟨s, env, .check⟩ then return .line (role.name ++ (": OK" : Text))
    return ⟨[], none, some (role.name ++ (": missing or conflicting properties" : Text))⟩
  | .defaults format => .quiet (printDefaults format)
  | .observers => .quiet (printObservers s env)

end Command

def Command.run (c : Command) (files : Files) (env : Environment) : Logged Printed := do
  let s ← match c.source with
    | none => pure (Store.empty true)
    | some path => Loader.loadStore files path
  c.action.run s env

namespace Command

/-! ### The log -/

def moduleOf (channel : Channel) : Text :=
  ((Text.fields (.scalar '.') channel.name).getLast?).getD []

def functionOf : Channel → Text
  | .program => "cli"
  | .loader => "load_configuration_file"
  | .configuration => "print"
  | .roles | .check => "check"

def recordOf (l : LogLine) : Severity × Record :=
  (l.severity, {
    logger := .text l.channel.name
    severity := .text l.severity.name
    template := .text l.message
    arguments := .ordered []
    moduleName := .text (moduleOf l.channel)
    function := .text (functionOf l.channel)
    line := .int 0
    incident := none
    extras := .empty })

def openingLine (plan : LogPlan) : LogLine :=
  ⟨.program, .debug, ("Logging configured at " : Text) ++ plan.level.name⟩

/-- What lines leave in the log file. The lines of a check go to the reader instead. -/
def journalOf (plan : LogPlan) (lines : List LogLine) : Option LogPlan.Journal :=
  plan.journal ((lines.filter fun l => l.channel ≠ .check).map recordOf)

end Command

/-! ### The program -/

structure Outcome where
  exitCode : Nat
  output : Text
  errors : Text
  table : Option Table
  journal : Option LogPlan.Journal
  fault : Option Fault

namespace Outcome

def usage : Text := "Usage: fluo [OPTIONS] config COMMAND [ARGS]...\n"

def misuse (journal : Option LogPlan.Journal) : Outcome := ⟨2, [], usage, none, journal, none⟩

def help (journal : Option LogPlan.Journal) : Outcome := ⟨0, usage, [], none, journal, none⟩

def version : Outcome := ⟨0, "fluo, version 0.1.0\n", [], none, none, none⟩

def faultLine (fault : Fault) : Text :=
  let shown := match fault.text with
    | .ok t => t
    | .error _ => fault.message
  Text.onErrors (("Error: " : Text) ++ shown ++ [.scalar '\n'])

def failed (output notices : Text) (journal : Option LogPlan.Journal) (fault : Fault) : Outcome :=
  let told := if fault.category?.isSome then faultLine fault else []
  ⟨1, output, notices ++ told, none, journal, some fault⟩

def noticesOf (lines : List LogLine) : Text :=
  (lines.filter fun l => l.channel = .check).flatMap fun l =>
    Text.onErrors (l.message ++ [.scalar '\n'])

def ofPrinted (printer : Printer) (notices : Text) (journal : Option LogPlan.Journal)
    (p : Printed) : Outcome :=
  match p.refusal with
  | some reason =>
    ⟨1, [], notices ++ Text.onErrors (reason ++ [.scalar '\n']), none, journal, none⟩
  | none =>
    match printer.print p.texts with
    | (output, none) => ⟨0, output, notices, p.table, journal, none⟩
    | (output, some obstacle) => failed output notices journal (.unwritable obstacle)

/-- How the work of a command ends, with what it gives printed. -/
def ofWork (printer : Printer) (plan : LogPlan) (work : Logged Printed) : Outcome :=
  let journal := Command.journalOf plan (Command.openingLine plan :: work.lines)
  let notices := noticesOf work.lines
  match work.result with
  | .ok p => ofPrinted printer notices journal p
  | .error fault => failed [] notices journal fault

def ofLineOn (printer : Printer) (files : Files) (env : Environment) (line : List Text) :
    Outcome :=
  match Command.readOpening files line with
  | .misuse => misuse none
  | .help => help none
  | .version => version
  | .group plan rest =>
    match plan.prepare files with
    | .error fault => failed [] [] none fault
    | .ok () =>
      let opening := Command.openingLine plan
      match Command.readGroup files rest with
      | .misuse => misuse (Command.journalOf plan [opening])
      | .help | .version => help (Command.journalOf plan [opening])
      | .run command => ofWork printer plan (command.run files env)

/-- A command line where no language is set, so that the output passes bytes on. -/
def ofLine (files : Files) (env : Environment) (line : List Text) : Outcome :=
  ofLineOn ⟨true⟩ files env line

end Outcome

end LayeredConfig
