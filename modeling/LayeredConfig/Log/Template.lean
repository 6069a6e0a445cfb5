import LayeredConfig.Binary64.Places
import LayeredConfig.Log.Template.Directive

/-! Filling in message templates. Pieces are filled in one after the other, and the first flaw
ends the work; an argument that is left over is a flaw too. -/

namespace LayeredConfig.Template

/-- What a template is filled in with: arguments in order, or one value, which is looked into by
keys if it has parts. -/
inductive Arguments where
  | ordered (values : List Value)
  | single (v : Value)

/-- Without arguments a template is taken as it stands. -/
def Arguments.isVoid : Arguments → Bool
  | ordered values => values.isEmpty
  | single v => v.isVoid

/-- The arguments that are left, and what keys are looked up in. -/
structure Supply where
  pending : List Value
  parts : Option Value

def Arguments.supply : Arguments → Supply
  | ordered values => ⟨values, none⟩
  | single v =>
    match v with
    | .list _ | .map _ | .bytes _ => ⟨[v], some v⟩
    | v => ⟨[v], none⟩

abbrev Filling (α : Type) := StateT Supply (Except Flaw) α

def take : Filling Value := do
  match (← get).pending with
  | [] => throw .missingArgument
  | v :: rest =>
    modify fun s => { s with pending := rest }
    return v

def lookUp (key : Text) : Value → Except Flaw Value
  | .map entries =>
    match entries.find? fun e => e.1.isSameKey (.text key) with
    | some e => .ok e.2
    | none => .error (.noEntry key)
  | .bytes _ => .error .bytesKey
  | _ => .error .listKey

/-- Makes the entry of a key the only argument. -/
def select (key : Key) : Filling Unit := do
  match key, (← get).parts with
  | .absent, _ => return
  | _, none => throw .notMap
  | .unclosed, some _ => return
  | .named key, some parts =>
    let v ← lookUp key parts
    modify fun s => { s with pending := [v] }

/-- A whole number given as an argument for a size. -/
def sizeArgument : Filling Int := do
  match ← take with
  | .int n => return n
  | .bool b => return if b then 1 else 0
  | _ => throw .sizeNotInteger

/-- A width, and whether it asks for the left side: a width below zero does. -/
def width (s : Size) : Filling (Nat × Bool) := do
  match s with
  | .unset => return (0, false)
  | .fixed n => return (n, false)
  | .argument =>
    let n ← sizeArgument
    if (maxWidth : Int) < n.natAbs then throw .widthTooLarge
    return (n.natAbs, n < 0)

/-- A precision; below zero it counts as zero. -/
def precision (s : Size) : Filling (Option Nat) := do
  match s with
  | .unset => return none
  | .fixed n => return some n
  | .argument =>
    let n ← sizeArgument
    if (maxPrecision : Int) < n.natAbs then throw .precisionTooLarge
    return some n.toNat

inductive Style where
  | plain
  | literal
  | ascii
  | character
  | decimal
  | octal
  | hexadecimal
  | scientific
  | fixed
  | general
deriving DecidableEq, Repr

def Style.ofCharacter? (c : CodePoint) : Option Style :=
  if c = 's' then some plain
  else if c = 'r' then some literal
  else if c = 'a' then some ascii
  else if c = 'c' then some character
  else if ("diu" : Text).contains c then some decimal
  else if c = 'o' then some octal
  else if ("xX" : Text).contains c then some hexadecimal
  else if ("eE" : Text).contains c then some scientific
  else if ("fF" : Text).contains c then some fixed
  else if ("gG" : Text).contains c then some general
  else none

/-- A value written out, in the parts that filling tells apart. -/
structure Written where
  sign : Text
  marker : Text
  body : Text

/-- What is written beside a number that is not negative. -/
def signOf (flags : Flags) (isNegative : Bool) : Text :=
  if isNegative then "-"
  else if flags.isSigned then "+"
  else if flags.isSpaced then " "
  else []

/-- Fills up to a width: blanks stand outside, and zeros between the sign and the digits. -/
def pad (flags : Flags) (isNumber : Bool) (width : Nat) (w : Written) : Text :=
  let gap := width - (w.sign ++ w.marker ++ w.body).length
  if flags.isLeft then w.sign ++ w.marker ++ w.body ++ List.replicate gap (.scalar ' ')
  else if isNumber && flags.isZeroFilled then
    w.sign ++ w.marker ++ List.replicate gap (.scalar '0') ++ w.body
  else List.replicate gap (.scalar ' ') ++ w.sign ++ w.marker ++ w.body

/-- The text with what is not ASCII written as escapes. -/
def escapeBeyondAscii (t : Text) : Text :=
  t.flatMap fun c =>
    if c.value < 0x80 then [c]
    else if c.value < 0x100 then ("\\x" : Text) ++ Text.hex 2 c.value
    else if c.value < 0x10000 then ("\\u" : Text) ++ Text.hex 4 c.value
    else ("\\U" : Text) ++ Text.hex 8 c.value

def orTooLong (t : Option Text) : Except Flaw Text :=
  match t with
  | some t => .ok t
  | none => .error .tooManyDigits

/-- The character that a value names by itself or by its number. -/
def characterOf : Value → Except Flaw CodePoint
  | .text [c] => .ok c
  | .bool b => .ok (CodePoint.ascii (if b then 1 else 0))
  | .int n =>
    if n < 0 then .error .noSuchCharacter
    else match CodePoint.ofNat? n.toNat with
      | some c => .ok c
      | none => .error .noSuchCharacter
  | _ => .error .notCharacter

/-- The whole number that a value is. -/
def wholeOf (c : CodePoint) : Value → Except Flaw Int
  | .int n => .ok n
  | .bool b => .ok (if b then 1 else 0)
  | v => .error (.notInteger c v.typeName)

/-- The whole number that a value is, with fractions cut off. -/
def truncatedOf (c : CodePoint) : Value → Except Flaw Int
  | .int n => .ok n
  | .bool b => .ok (if b then 1 else 0)
  | .float .nan => .error .nanToInteger
  | .float x =>
    match x.truncate? with
    | some n => .ok n
    | none => .error .infinityToInteger
  | v => .error (.notNumber c v.typeName)

def realOf : Value → Except Flaw Binary64
  | .float x => .ok x
  | .bool b => .ok (.ofRatio false (if b then 1 else 0) 1)
  | .int n =>
    match Binary64.ofRatio (n < 0) n.natAbs 1 with
    | .infinite _ => .error .tooLargeForReal
    | x => .ok x
  | v => .error (.notReal v.typeName)

def wholeWritten (flags : Flags) (least : Nat) (marker : Text) (base : Nat) (n : Int) : Written :=
  ⟨signOf flags (n < 0), if flags.isAlternate then marker else [],
    Text.padStart least '0' (Numeral.digits base n.natAbs)⟩

/-- A number in one of the styles for fractions, with six places where none are asked for. -/
def realWritten (flags : Flags) (style : Style) (places : Option Nat) (x : Binary64) : Written :=
  let places := places.getD 6
  let body : Text := match x with
    | .nan => "nan"
    | .infinite _ => "inf"
    | .finite _ m q =>
      let (num, den) := Binary64.ratio m q
      match style with
      | .fixed => Binary64.fixedText flags.isAlternate places num den
      | .scientific => Binary64.scientificText flags.isAlternate places num den
      | _ => Binary64.generalText flags.isAlternate places num den
  ⟨signOf flags x.isNegative, [], body⟩

def isUpperCase (c : CodePoint) : Bool := 65 ≤ c.value && c.value ≤ 90

def Written.ofCase (c : CodePoint) (w : Written) : Written :=
  if isUpperCase c then { w with marker := w.marker.upper, body := w.body.upper } else w

/-- A value in a style, and whether it is written as a number. -/
def write (flags : Flags) (places : Option Nat) (c : CodePoint) (v : Value) (style : Style) :
    Except Flaw (Written × Bool) := do
  let words (t : Text) : Written × Bool := (⟨[], [], (places.map t.take).getD t⟩, false)
  let number (w : Written) : Written × Bool := (w.ofCase c, true)
  match style with
  | .plain => return words (← orTooLong v.plain?)
  | .literal => return words (← orTooLong v.literal?)
  | .ascii => return words (escapeBeyondAscii (← orTooLong v.literal?))
  | .character => return (⟨[], [], [← characterOf v]⟩, false)
  | .decimal =>
    let n ← truncatedOf c v
    let _ ← orTooLong (Numeral.ofInt? n)
    return number { wholeWritten flags (places.getD 0) [] 10 n with marker := [] }
  | .octal => return number (wholeWritten flags (places.getD 0) "0o" 8 (← wholeOf c v))
  | .hexadecimal => return number (wholeWritten flags (places.getD 0) "0x" 16 (← wholeOf c v))
  | .scientific | .fixed | .general =>
    return number (realWritten flags style places (← realOf v))

def fillDirective (d : Directive) : Filling Text := do
  select d.key
  let (width, toLeft) ← width d.width
  let places ← precision d.precision
  let flags := { d.flags with isLeft := d.flags.isLeft || toLeft }
  let (c, index) ← d.ending
  let v ← take
  match Style.ofCharacter? c with
  | none => throw (.unknownConversion c index)
  | some style =>
    let (written, isNumber) ← write flags places c v style
    return pad flags isNumber width written

def fillPiece : Piece → Filling Text
  | .character c => return [c]
  | .directive d => fillDirective d

def fillAll (ps : List Piece) : Filling Text := do
  let texts ← ps.mapM fillPiece
  let s ← get
  if s.parts.isNone && !s.pending.isEmpty then throw .unusedArguments
  return texts.flatten

def fill (template : Text) (arguments : Arguments) : Except Flaw Text :=
  if arguments.isVoid then .ok template
  else (fillAll (pieces template)).run' arguments.supply

end LayeredConfig.Template
