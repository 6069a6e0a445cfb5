import LayeredConfig.Command.Outcome

/-! The program. It reads the environment and the files that the command line names, runs the
command line on them, and writes what it prints and logs. -/

namespace LayeredConfig

/-- A text as a string; a lone surrogate is shown as a replacement character. -/
def Text.display (t : Text) : String :=
  String.ofList (t.map fun
    | CodePoint.scalar c => c
    | CodePoint.surrogate _ => '\ufffd')

namespace Program

/-- The parts of bytes between zeros. -/
def splitAtZeros : List UInt8 → List (List UInt8)
  | [] => [[]]
  | b :: rest =>
    if b = 0 then [] :: splitAtZeros rest
    else match splitAtZeros rest with
      | [] => [[b]]
      | part :: parts => (b :: part) :: parts

def equalsByte : UInt8 := 61

/-- The variables of the environment. A variable that is not UTF-8 is left out. -/
def readEnvironment : IO Environment := do
  let bytes ← IO.FS.readBinFile "/proc/self/environ"
  return (splitAtZeros bytes.toList).filterMap fun part =>
    match part.dropWhile (· ≠ equalsByte) with
    | [] => none
    | _ :: value =>
      (Text.ofUtf8? ⟨value.toArray⟩).map fun t => (part.takeWhile (· ≠ equalsByte), t)

def notDirectoryCode : UInt32 := 20

def lookUp (p : Path) : IO Lookup := do
  try
    return .file (← IO.FS.readBinFile p.text.display)
  catch e =>
    match e with
    | .noFileOrDirectory .. => return .failed .notFound
    | .inappropriateType _ code _ =>
      return if code = notDirectoryCode then .failed .notDirectory else .directory
    | _ => return .failed .notFound

/-- The paths that an argument may name: the whole of it, what follows an equals sign, and the
directories above both. -/
def pathsOf (argument : Text) : List Path :=
  let value := (argument.dropWhile (· ≠ .scalar '=')).drop 1
  [argument, value].flatMap fun t => [Path.ofText t, (Path.ofText t).parent]

def readFiles (line : List Text) : IO Files := do
  let found ← (line.flatMap pathsOf).mapM fun p => return (p, ← lookUp p)
  return fun p => (found.lookup p).getD (.failed .notFound)

def entryText : LogPlan.Entry → Text
  | .line t => t
  | .object v => (JsonText.write v).toOption.getD []

/-- What is said of a fault that no line tells. -/
def remarkOn (outcome : Outcome) : Text :=
  match outcome.fault with
  | some fault => if fault.category?.isSome then [] else fault.message ++ [.scalar '\n']
  | none => []

def appendJournal (l : LogPlan.Journal) : IO Unit := do
  IO.FS.createDirAll l.path.parent.text.display
  let file ← IO.FS.Handle.mk l.path.text.display .append
  for e in l.entries do
    file.putStrLn (entryText e).display

end Program

end LayeredConfig

open LayeredConfig in
def main (args : List String) : IO UInt32 := do
  let line := args.map fun (a : String) => (a : Text)
  let outcome := Outcome.ofLine (← Program.readFiles line) (← Program.readEnvironment) line
  if let some l := outcome.journal then Program.appendJournal l
  if let some t := outcome.table then IO.print t.text.display
  IO.print outcome.output.display
  IO.eprint (outcome.errors ++ Program.remarkOn outcome).display
  return outcome.exitCode.toUInt32
