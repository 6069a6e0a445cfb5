import LayeredConfig.Log.Template.Flaw

/-! Message templates as pieces: characters, and directives that stand for an argument. A
directive is a percent sign, a key in parentheses, flags, a width, a point with a precision, a
letter without meaning and the conversion; all but the first and last may be left out. -/

namespace LayeredConfig.Template

structure Flags where
  isLeft : Bool
  isSigned : Bool
  isSpaced : Bool
  isAlternate : Bool
  isZeroFilled : Bool
deriving DecidableEq, Repr

def Flags.ofText (t : Text) : Flags :=
  ⟨t.contains '-', t.contains '+', t.contains ' ', t.contains '#', t.contains '0'⟩

def isFlag (c : CodePoint) : Bool := ("-+ #0" : Text).contains c

/-- What a directive looks its argument up by. -/
inductive Key where
  | absent
  | unclosed
  | named (key : Text)
deriving DecidableEq, Repr

/-- A width or a precision; a star takes it from the arguments. -/
inductive Size where
  | unset
  | fixed (n : Nat)
  | argument
deriving DecidableEq, Repr

/-- A directive as far as it could be read. It ends in its conversion, given with its index in
the template, or in a flaw. -/
structure Directive where
  key : Key
  flags : Flags
  width : Size
  precision : Size
  ending : Except Flaw (CodePoint × Nat)

inductive Piece where
  | character (c : CodePoint)
  | directive (d : Directive)

def isDigit (c : CodePoint) : Bool := 48 ≤ c.value && c.value ≤ 57

def maxWidth : Nat := 0x7FFFFFFFFFFFFFFF
def maxPrecision : Nat := 0x7FFFFFFF

/-- A key up to the parenthesis that closes it, with parentheses inside in pairs. -/
def spanKey (depth : Nat) : Text → Option (Text × Text)
  | [] => none
  | c :: rest =>
    if c = .scalar ')' then
      match depth with
      | 0 => some ([], rest)
      | depth + 1 => (spanKey depth rest).map fun r => (c :: r.1, r.2)
    else
      (spanKey (if c = .scalar '(' then depth + 1 else depth) rest).map fun r => (c :: r.1, r.2)

/-- A size at the front of a text, and the rest. -/
def spanSize (limit : Nat) (tooBig : Flaw) (t : Text) : Except Flaw (Size × Text) :=
  match t with
  | .scalar '*' :: rest => .ok (.argument, rest)
  | t =>
    match t.takeWhile isDigit with
    | [] => .ok (.unset, t)
    | ds =>
      let n := Numeral.valueOf (ds.map fun d => d.value - 48)
      if limit < n then .error tooBig else .ok (.fixed n, t.drop ds.length)

/-- A precision after its point; a point alone means zero. -/
def spanPrecision (t : Text) : Except Flaw (Size × Text) :=
  match t with
  | .scalar '.' :: rest =>
    (spanSize maxPrecision .precisionTooBig rest).map fun r =>
      (if r.1 = .unset then .fixed 0 else r.1, r.2)
  | t => .ok (.unset, t)

/-- Drops a letter that only names the length of a number. -/
def dropLength (t : Text) : Text :=
  match t with
  | c :: rest => if ("hlL" : Text).contains c then rest else t
  | [] => []

/-- The conversion at the front of what is left of a template of so many characters. -/
def spanConversion (length : Nat) (t : Text) : Except Flaw (CodePoint × Nat) × Text :=
  match dropLength t with
  | [] => (.error .unfinished, [])
  | c :: rest => (.ok (c, length - rest.length - 1), rest)

def spanAfterKey (length : Nat) (key : Key) (t : Text) : Directive × Text :=
  let flags := Flags.ofText (t.takeWhile isFlag)
  match spanSize maxWidth .widthTooBig (t.dropWhile isFlag) with
  | .error flaw => (⟨key, flags, .unset, .unset, .error flaw⟩, [])
  | .ok (width, t) =>
    match spanPrecision t with
    | .error flaw => (⟨key, flags, width, .unset, .error flaw⟩, [])
    | .ok (precision, t) =>
      let (ending, rest) := spanConversion length t
      (⟨key, flags, width, precision, ending⟩, rest)

def spanDirective (length : Nat) (t : Text) : Directive × Text :=
  match t with
  | .scalar '(' :: rest =>
    match spanKey 0 rest with
    | none => (⟨.unclosed, Flags.ofText [], .unset, .unset, .error .unclosedKey⟩, [])
    | some (key, rest) => spanAfterKey length (.named key) rest
  | t => spanAfterKey length .absent t

/-- The pieces of what is left of a template. Two percent signs are one that is meant. -/
def piecesOf (length : Nat) : Nat → Text → List Piece
  | 0, _ | _, [] => []
  | budget + 1, .scalar '%' :: .scalar '%' :: rest =>
    .character '%' :: piecesOf length budget rest
  | budget + 1, .scalar '%' :: rest =>
    let (d, rest) := spanDirective length rest
    .directive d :: piecesOf length budget rest
  | budget + 1, c :: rest => .character c :: piecesOf length budget rest

/-- The pieces of a template. Each takes a character at least, so its length is budget
enough. -/
def pieces (t : Text) : List Piece := piecesOf t.length t.length t

end LayeredConfig.Template
