import LayeredConfig.Text

/-! Options on a command line. An option begins with a dash; its value follows, or stands in the
same argument after an equals sign. Everything after two dashes alone is an operand. -/

namespace LayeredConfig.Command

structure OptionForm where
  name : Text
  takesValue : Bool
deriving DecidableEq, Repr

/-- What a command line holds: options in the order given, each with its value, and operands. -/
structure Arguments where
  options : List (Text × Text)
  operands : List Text
deriving DecidableEq, Repr

namespace Arguments

def none : Arguments := ⟨[], []⟩

def addOption (name value : Text) (a : Arguments) : Arguments :=
  { a with options := (name, value) :: a.options }

def addOperand (t : Text) (a : Arguments) : Arguments := { a with operands := t :: a.operands }

/-- A dash with something after it. -/
def isOption : Text → Bool
  | .scalar '-' :: _ :: _ => true
  | _ => false

/-- The name of an option, and the value after an equals sign. -/
def splitOption (t : Text) : Text × Option Text :=
  match t.dropWhile (· ≠ .scalar '=') with
  | [] => (t, Option.none)
  | _ :: value => (t.takeWhile (· ≠ .scalar '='), some value)

/-- Reads a command line. Where options may not stand among operands, the first operand ends
the options. -/
def read (forms : List OptionForm) (isMixed : Bool) : List Text → Option Arguments
  | [] => some none
  | t :: rest =>
    if t = ("--" : Text) then some ⟨[], rest⟩
    else if isOption t then
      let (name, given) := splitOption t
      match forms.find? fun f => f.name = name with
      | Option.none => Option.none
      | some form =>
        match form.takesValue, given, rest with
        | true, some value, rest => (read forms isMixed rest).map (addOption name value)
        | true, Option.none, value :: rest => (read forms isMixed rest).map (addOption name value)
        | true, Option.none, [] => Option.none
        | false, Option.none, rest => (read forms isMixed rest).map (addOption name [])
        | false, some _, _ => Option.none
    else if isMixed then (read forms isMixed rest).map (addOperand t)
    else some ⟨[], t :: rest⟩

/-- The value of an option: of several the last one counts. -/
def value? (a : Arguments) (name : Text) : Option Text := a.options.reverse.lookup name

def has (a : Arguments) (name : Text) : Bool := (a.value? name).isSome

end Arguments

end LayeredConfig.Command
