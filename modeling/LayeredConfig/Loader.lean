import LayeredConfig.Document
import LayeredConfig.FileTree
import LayeredConfig.Log.Lines
import LayeredConfig.Properties.Reader
import LayeredConfig.Store
import LayeredConfig.Toml.Reader

/-! Loading configuration files into layers. The ending of a file's name decides its format. -/

namespace LayeredConfig.Loader

/-- Line ends in a file: a carriage return, alone or before a line feed, reads as one. -/
def unifyLineEnds : Text → Text
  | [] => []
  | .scalar '\r' :: .scalar '\n' :: rest => .scalar '\n' :: unifyLineEnds rest
  | c :: rest => (if c = .scalar '\r' then .scalar '\n' else c) :: unifyLineEnds rest

def tomlExtension : Text := ".toml"

def isToml (p : Path) : Bool := p.extension.lower = tomlExtension

def contents (files : Files) (p : Path) : Except Fault ByteArray :=
  match p.flaw? with
  | some fault => .error fault
  | none =>
    match files p with
    | .file bytes => .ok bytes
    | .directory => .error (.unreadable p.text .isDirectory)
    | .failed failure => .error (.unreadable p.text failure)

def parse (p : Path) (t : Text) : Except Fault Layer :=
  if isToml p then
    match Toml.read t with
    | none => .error (.invalidDocument p.text)
    | some entries => Document.flatten [] entries
  else (Properties.read t).map fun m => m.map Value.text

def load (files : Files) (path : Text) : Logged Layer := do
  let p := Path.ofText path
  let bytes ← .quiet (contents files p)
  let layer ← .quiet <|
    match Text.ofUtf8? bytes with
    | none => .error (.notUtf8 p.text)
    | some t => parse p (unifyLineEnds t)
  .write .loader .debug (("Loaded " : Text) ++ Numeral.ofNat layer.size ++
    (" properties from " : Text) ++ p.text)
  return layer

def loadStore (files : Files) (path : Text) : Logged Store := do
  return (Store.empty true).addLayer (← load files path)

end LayeredConfig.Loader
