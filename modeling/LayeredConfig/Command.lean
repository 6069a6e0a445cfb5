import LayeredConfig.Command.Options
import LayeredConfig.FileTree
import LayeredConfig.Log.Plan
import LayeredConfig.Role

/-! The commands of the program, and how a command line asks for one. Options that all commands
share stand in front; a command line that cannot be read is a misuse, whatever else is asked. -/

namespace LayeredConfig

namespace Command

inductive Format where
  | properties
  | toml
  | table
deriving DecidableEq, Repr

def Format.ofName? (name : Text) : Option Format :=
  if name = ("properties" : Text) then some properties
  else if name = ("toml" : Text) then some toml
  else if name = ("table" : Text) then some table
  else none

inductive Action where
  | show (space : Option Text)
  | get (key : Text)
  | validate
  | check (role : Role)
  | defaults (format : Format)
  | observers
deriving DecidableEq, Repr

end Command

/-- An action on the configuration of a file, or on an empty one. -/
structure Command where
  action : Command.Action
  source : Option Text
deriving DecidableEq, Repr

namespace Command

inductive Request where
  | misuse
  | help
  | version
  | run (command : Command)
deriving DecidableEq, Repr

def switch (name : Text) : OptionForm := ⟨name, false⟩
def valued (name : Text) : OptionForm := ⟨name, true⟩

def helpName : Text := "--help"
def versionName : Text := "--version"
def sourceName : Text := "--config"

/-- Whether a path that must lead to a file does: one that ends like a directory does not. -/
def isFile (files : Files) (path : Text) : Bool :=
  match files (Path.ofText path), (Text.fields Path.slash path).getLast? with
  | .file _, some last => last ≠ [] && last ≠ ("." : Text)
  | _, _ => false

def isDirectory (files : Files) (path : Text) : Bool :=
  match files (Path.ofText path) with
  | .directory => !path.isEmpty
  | _ => false

/-! ### One action -/

def optionsOf (name : Text) : List OptionForm :=
  if name = ("show" : Text) then [valued "--prefix", valued sourceName]
  else if name = ("defaults" : Text) then [valued "--format"]
  else [valued sourceName]

def actionOf? (name : Text) (a : Arguments) : Option Action :=
  match a.operands with
  | [] =>
    if name = ("show" : Text) then some (.show (a.value? "--prefix"))
    else if name = ("validate" : Text) then some .validate
    else if name = ("observers" : Text) then some .observers
    else if name = ("defaults" : Text) then
      (Format.ofName? ((a.value? "--format").getD "properties")).map .defaults
    else none
  | [operand] =>
    if name = ("get" : Text) then some (.get operand)
    else if name = ("check" : Text) then (Role.ofName? operand).map .check
    else none
  | _ => none

def actionNames : List Text := ["show", "get", "validate", "check", "defaults", "observers"]

def readAction (files : Files) (name : Text) (rest : List Text) : Request :=
  match Arguments.read (switch helpName :: optionsOf name) true rest with
  | none => .misuse
  | some a =>
    if a.has helpName then .help
    else if (a.value? sourceName).any fun path => !isFile files path then .misuse
    else match actionOf? name a with
      | some action => .run ⟨action, a.value? sourceName⟩
      | none => .misuse

/-! ### The whole command line -/

def groupName : Text := "config"

def readGroup (files : Files) (rest : List Text) : Request :=
  match Arguments.read [switch helpName] false rest with
  | none => .misuse
  | some a =>
    if a.has helpName then .help
    else match a.operands with
      | name :: rest => if actionNames.contains name then readAction files name rest else .misuse
      | [] => .misuse

def globalOptions : List OptionForm :=
  [valued "--log-level", valued "--log-file", switch "--structured-logging",
    switch versionName, switch helpName]

def severityOf? (name : Text) : Option Severity := Severity.ofName? name.upper

def planOf? (files : Files) (a : Arguments) : Option LogPlan := do
  let level ← severityOf? ((a.value? "--log-level").getD Severity.warning.name)
  let file := a.value? "--log-file"
  if file.any (isDirectory files) then none
  else return ⟨level, file, a.has "--structured-logging"⟩

/-- A command line as far as the name of the group: its plan for logging, and what follows. -/
inductive Opening where
  | misuse
  | help
  | version
  | group (plan : LogPlan) (rest : List Text)
deriving DecidableEq, Repr

def printing? (a : Arguments) : Option Opening :=
  a.options.findSome? fun o =>
    if o.1 = helpName then some .help else if o.1 = versionName then some .version else none

def readOpening (files : Files) (line : List Text) : Opening :=
  match Arguments.read globalOptions false line with
  | none => .misuse
  | some a =>
    match printing? a with
    | some opening => opening
    | none =>
      match planOf? files a, a.operands with
      | some plan, name :: rest => if name = groupName then .group plan rest else .misuse
      | _, _ => .misuse

end Command

end LayeredConfig
