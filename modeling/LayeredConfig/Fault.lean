import LayeredConfig.Text.Utf8
import LayeredConfig.Value.Rendering

/-! What can go wrong, by cause, and the words in which it is reported. -/

namespace LayeredConfig

/-- The kinds of error of this library, from the widest. -/
inductive Category where
  | anyError
  | validation
  | configuration
  | missingProperty
  | inputOutput
deriving DecidableEq, Repr

/-- The wider kinds that a kind belongs to, from the nearest. -/
def Category.wider : Category → List Category
  | anyError => []
  | validation => [anyError]
  | configuration => [validation, anyError]
  | missingProperty => [configuration, validation, anyError]
  | inputOutput => [anyError]

/-- An error as it is shown: a message and details by name. -/
structure Report where
  category : Category
  message : Text
  details : List (Value × Value)

def Report.text? (r : Report) : Option Text :=
  if r.details.isEmpty then some r.message
  else (Value.map r.details).literal?.map fun d =>
    r.message ++ (" (Details: " : Text) ++ d ++ [.scalar ')']

/-- A rule that the value of a property must keep. -/
inductive Rule where
  | integer
  | positive
  | nonNegative
  | retryTimeout
  | port
  | notNull
  | isText
  | nonEmpty
  | truth
deriving DecidableEq, Repr

namespace Rule

def leastPort : Int := 1
def greatestPort : Int := 65535

def text : Rule → Text
  | integer => "must be an integer"
  | positive => "must be positive"
  | nonNegative => "must be non-negative"
  | retryTimeout => "must be >= -1"
  | port =>
    ("must be valid port (" : Text) ++ Numeral.ofInt leastPort ++ .scalar '-' ::
      Numeral.ofInt greatestPort ++ [.scalar ')']
  | notNull => "cannot be null"
  | isText => "must be a string"
  | nonEmpty => "cannot be empty"
  | truth => "must be a boolean"

/-- Whether a report of the broken rule shows the value. -/
def showsValue : Rule → Bool
  | notNull | nonEmpty => false
  | _ => true

end Rule

inductive AccessFailure where
  | notFound
  | notDirectory
  | isDirectory
  | alreadyThere
  | nameTooLong
  | other (code : Nat) (reason : Text)
deriving DecidableEq, Repr

namespace AccessFailure

def code : AccessFailure → Nat
  | notFound => 2
  | notDirectory => 20
  | isDirectory => 21
  | alreadyThere => 17
  | nameTooLong => 36
  | other n _ => n

def reason : AccessFailure → Text
  | notFound => "No such file or directory"
  | notDirectory => "Not a directory"
  | isDirectory => "Is a directory"
  | alreadyThere => "File exists"
  | nameTooLong => "File name too long"
  | other _ t => t

def text (f : AccessFailure) (path : Text) : Text :=
  ("[Errno " : Text) ++ Numeral.ofNat f.code ++ ("] " : Text) ++ f.reason ++ (": " : Text) ++
    path.quoted

end AccessFailure

/-- What is wrong with one part of a record that was given field by field. -/
structure Flaw where
  path : List Value
  kind : Text
  message : Text

inductive NameFlaw where
  | null
  | separator (c : CodePoint)
  | invalid (c : CodePoint)
deriving DecidableEq, Repr

namespace NameFlaw

def character : NameFlaw → CodePoint
  | null => CodePoint.ascii 0
  | separator c => c
  | invalid c => c

def text : NameFlaw → Text
  | null => "null character not allowed"
  | separator c => ("invalid character " : Text) ++ Text.quoted [c]
  | invalid c =>
    ("invalid character " : Text) ++ Text.quoted [c] ++ (" (U+" : Text) ++
      Text.upper (Text.hex 4 c.value) ++ [.scalar ')']

end NameFlaw

inductive Fault where
  | missingProperty (key : Text)
  | notInteger (key : Text) (value : Value)
  | notTruth (key : Text) (value : Value)
  | broken (rule : Rule) (property : Text) (value : Value)
  | nameNull
  | nameNotText (value : Value)
  | nameEmpty
  | nameRefused (name : Text) (flaw : NameFlaw) (index : Nat)
  | observerEmpty (key : Text)
  | observerUnnamed (key value : Text)
  | observerField (key field : Text)
  | observerPart (key field : Text)
  | malformedEscape (found : Text)
  | arrayValue (key : Text)
  | notBase64
  | unsupportedSource (typeName : Text)
  | notUtf8 (path : Text)
  | invalidDocument (path : Text)
  | unreadable (path : Text) (failure : AccessFailure)
  | brokenStream (reason : Text)
  | flawed (flaws : List Flaw)
  | tooManyDigits
  | unwritable (place : Unwritable)
  | nullInPath
  | noLogDirectory (path : Text) (failure : AccessFailure)
  | noLogFile
  | notRole (shown : Text)
  | noDefaults (typeName : Text)
  | notIterable (typeName : Text)
  | lacks (typeName member : Text)

namespace Fault

def quotes (t : Text) : Text := .scalar '\'' :: t ++ [.scalar '\'']

/-- The words for a fault. Where base64 or a document cannot be read, they would go on after a colon
with what its reader says; that is left out. -/
def message : Fault → Text
  | missingProperty key =>
    ("Key " : Text) ++ quotes key ++ (" does not map to an existing object!" : Text)
  | notInteger key _ => quotes key ++ (" doesn't map to an int object" : Text)
  | notTruth key _ => quotes key ++ (" doesn't map to a boolean object" : Text)
  | broken rule property _ => property ++ .scalar ' ' :: rule.text
  | nameNull => "Application name cannot be null"
  | nameNotText _ => "Application name must be a string"
  | nameEmpty => "Application name length must be > 0"
  | nameRefused name flaw index =>
    ("Invalid application name \"" : Text) ++ name ++ ("\" caused by " : Text) ++ flaw.text ++
      (" @" : Text) ++ Numeral.ofNat index
  | observerEmpty key => key ++ (" is set to empty value" : Text)
  | observerUnnamed key value => key ++ (" has empty class name: " : Text) ++ value
  | observerField key field =>
    key ++ (" has invalid param. Expected 'key=value' but encountered " : Text) ++ quotes field
  | observerPart key field => key ++ (" has empty key or value in param: " : Text) ++ field
  | malformedEscape found => ("Malformed \\uxxxx encoding: \\u" : Text) ++ found
  | arrayValue key =>
    ("Array values are not supported for " : Text) ++ quotes key ++ ("; use a single string" : Text)
  | notBase64 => "Metrics YAML is not valid base64"
  | unsupportedSource typeName => ("Unsupported configuration source type: " : Text) ++ typeName
  | notUtf8 path => ("Configuration file " : Text) ++ path ++ (" is not valid UTF-8" : Text)
  | invalidDocument path => ("Invalid TOML in " : Text) ++ path
  | unreadable path failure =>
    ("Failed to read configuration file " : Text) ++ path ++ (": " : Text) ++ failure.text path
  | brokenStream reason => ("Failed to read metrics YAML: " : Text) ++ reason
  | flawed flaws => Text.join "; " (flaws.map Flaw.message)
  | tooManyDigits =>
    ("Exceeds the limit (4300 digits) for integer string conversion; use " : Text) ++
      ("sys.set_int_max_str_digits() to increase the limit" : Text)
  | unwritable place => place.message
  | nullInPath => "embedded null byte"
  | noLogDirectory path failure => failure.text path
  | noLogFile => "Unable to configure handler 'file'"
  | notRole shown => shown ++ (" is not a valid Role" : Text)
  | noDefaults typeName => ("Cannot populate defaults on " : Text) ++ typeName
  | notIterable typeName => quotes typeName ++ (" object is not iterable" : Text)
  | lacks typeName member =>
    quotes typeName ++ (" object has no attribute " : Text) ++ quotes member

/-- The details by name: the value that was refused, or where it came from. -/
def details : Fault → List (Value × Value)
  | notInteger _ value | notTruth _ value | nameNotText value => [(.text "value", value)]
  | broken rule _ value => if rule.showsValue then [(.text "value", value)] else []
  | nameRefused _ flaw index =>
    [(.text "character", .text [flaw.character]), (.text "index", .int index)]
  | invalidDocument path | unreadable path _ => [(.text "path", .text path)]
  | _ => []

/-- The kind of error of this library; a fault without one is a misuse or a limit of the
system, and is not caught where errors of this library are. -/
def category? : Fault → Option Category
  | missingProperty _ => some .missingProperty
  | unreadable .. | brokenStream _ => some .inputOutput
  | flawed _ | tooManyDigits | unwritable _ | nullInPath | noLogDirectory .. | noLogFile
  | notRole _ | noDefaults _ | notIterable _ | lacks .. => none
  | _ => some .configuration

def report? (f : Fault) : Option Report :=
  f.category?.map fun c => ⟨c, f.message, f.details⟩

/-- Whether the fault is about the configuration's content: a missing property counts. -/
def isConfiguration (f : Fault) : Bool :=
  match f.category? with
  | some c => c = .configuration || c.wider.contains .configuration
  | none => false

def text (f : Fault) : Except Fault Text :=
  match f.report? with
  | none => .ok f.message
  | some r => match r.text? with
    | some t => .ok t
    | none => .error .tooManyDigits

end Fault

end LayeredConfig
