import LayeredConfig.Value

/-! The scalars of TOML: strings in their four forms, numbers, truth values, dates and times. A
function that reads the front of a text returns the rest beside what it read. -/

namespace LayeredConfig.Toml

def isSpace (c : CodePoint) : Bool := c = .scalar ' ' || c = .scalar '\t'

def isNewline (c : CodePoint) : Bool := c = .scalar '\n'

/-- Control characters other than a tab stand in no string and no comment. -/
def isControl (c : CodePoint) : Bool := (c.value < 0x20 && c.value ≠ 9) || c.value = 0x7F

def isDigit (c : CodePoint) : Bool := 48 ≤ c.value && c.value ≤ 57

def isLetter (c : CodePoint) : Bool :=
  (65 ≤ c.value && c.value ≤ 90) || (97 ≤ c.value && c.value ≤ 122)

def quote : CodePoint := .scalar '"'
def apostrophe : CodePoint := .scalar '\''

def cons (c : CodePoint) (p : Option (Text × Text)) : Option (Text × Text) :=
  p.map fun r => (c :: r.1, r.2)

def escaped? (c : CodePoint) : Option CodePoint :=
  if c = .scalar 'b' then some (.scalar '\x08')
  else if c = .scalar 't' then some (.scalar '\t')
  else if c = .scalar 'n' then some (.scalar '\n')
  else if c = .scalar 'f' then some (.scalar '\x0c')
  else if c = .scalar 'r' then some (.scalar '\r')
  else if c = quote ∨ c = .scalar '\\' then some c
  else none

/-- The character with a number in hexadecimal digits; surrogates have none. -/
def numbered? (digits : Text) : Option CodePoint := do
  let ds ← digits.mapM CodePoint.hexValue?
  let c ← CodePoint.ofNat? (ds.foldl (fun n d => 16 * n + d) 0)
  if c.isSurrogate then none else some c

/-- A string up to its closing quote. -/
def basicString : Text → Option (Text × Text)
  | [] => none
  | c :: rest =>
    if c = quote then some ([], rest)
    else if c = .scalar '\\' then
      match rest with
      | .scalar 'u' :: a :: b :: c :: d :: tail => do
        cons (← numbered? [a, b, c, d]) (basicString tail)
      | .scalar 'U' :: a :: b :: c :: d :: e :: f :: g :: h :: tail => do
        cons (← numbered? [a, b, c, d, e, f, g, h]) (basicString tail)
      | e :: tail => do cons (← escaped? e) (basicString tail)
      | [] => none
    else if isControl c then none
    else cons c (basicString rest)

def literalString : Text → Option (Text × Text)
  | [] => none
  | c :: rest =>
    if c = apostrophe then some ([], rest)
    else if isControl c then none
    else cons c (literalString rest)

/-- The end of a string over several lines: three marks, of which up to two more stand before
the end. -/
def closing? (mark : CodePoint) (t : Text) : Option (Text × Text) :=
  let run := (t.takeWhile (· = mark)).length
  if run < 3 then none
  else if 5 ≤ run then some ([mark, mark], t.drop 5)
  else some (List.replicate (run - 3) mark, t.drop run)

/-- A string over several lines up to its end. After a backslash at the end of a line, blanks
and line ends are skipped. -/
def multilineBasic (skipping : Bool) : Text → Option (Text × Text)
  | [] => none
  | c :: rest =>
    if skipping && (isSpace c || isNewline c) then multilineBasic true rest
    else if let some (last, after) := closing? quote (c :: rest) then some (last, after)
    else if c = .scalar '\\' then
      if (rest.dropWhile isSpace).head?.any isNewline then multilineBasic true rest
      else match rest with
        | .scalar 'u' :: a :: b :: c :: d :: tail => do
          cons (← numbered? [a, b, c, d]) (multilineBasic false tail)
        | .scalar 'U' :: a :: b :: c :: d :: e :: f :: g :: h :: tail => do
          cons (← numbered? [a, b, c, d, e, f, g, h]) (multilineBasic false tail)
        | e :: tail => do cons (← escaped? e) (multilineBasic false tail)
        | [] => none
    else if isControl c && !isNewline c then none
    else cons c (multilineBasic false rest)

def multilineLiteral : Text → Option (Text × Text)
  | [] => none
  | c :: rest =>
    if let some (last, after) := closing? apostrophe (c :: rest) then some (last, after)
    else if isControl c && !isNewline c then none
    else cons c (multilineLiteral rest)

/-- A line end right after the opening of a string over several lines is not part of it. -/
def dropNewline (t : Text) : Text := if t.head?.any isNewline then t.drop 1 else t

def string (t : Text) : Option (Text × Text) :=
  match t with
  | .scalar '"' :: .scalar '"' :: .scalar '"' :: rest => multilineBasic false (dropNewline rest)
  | .scalar '"' :: rest => basicString rest
  | .scalar '\'' :: .scalar '\'' :: .scalar '\'' :: rest => multilineLiteral (dropNewline rest)
  | .scalar '\'' :: rest => literalString rest
  | _ => none

/-- A string on one line, as a key may be. -/
def keyString (t : Text) : Option (Text × Text) :=
  match t with
  | .scalar '"' :: rest => basicString rest
  | .scalar '\'' :: rest => literalString rest
  | _ => none

/-! ### Numbers -/

/-- A sign, if there is one, and the rest. -/
def splitSign (t : Text) : Bool × Text :=
  match t with
  | .scalar '-' :: rest => (true, rest)
  | .scalar '+' :: rest => (false, rest)
  | rest => (false, rest)

/-- Decimal digits without a zero in front of others. -/
def plainDigits? (t : Text) : Option (List Nat) :=
  if t.head? = some (.scalar '0') ∧ 1 < t.length then none else Numeral.digits? t

/-- Digits of a base with single underscores between them. -/
def digitsIn? (base : Nat) (t : Text) : Option (List Nat) := do
  let parts := Text.fields (.scalar '_') t
  if parts.any List.isEmpty then none
  let ds ← parts.flatten.mapM CodePoint.hexValue?
  if ds.all (· < base) then some ds else none

def valueIn (base : Nat) (ds : List Nat) : Int :=
  (ds.foldl (fun n d => base * n + d) 0 : Nat)

def integer? (t : Text) : Option Int :=
  match t with
  | .scalar '0' :: .scalar 'x' :: rest => (digitsIn? 16 rest).map (valueIn 16)
  | .scalar '0' :: .scalar 'o' :: rest => (digitsIn? 8 rest).map (valueIn 8)
  | .scalar '0' :: .scalar 'b' :: rest => (digitsIn? 2 rest).map (valueIn 2)
  | t => do
    let (negative, body) := splitSign t
    let ds ← plainDigits? body
    if ds.length ≤ Numeral.maxDigits then
      some (if negative then -(Numeral.valueOf ds : Int) else Numeral.valueOf ds)
    else none

def isExponentMark (c : CodePoint) : Bool := c = .scalar 'e' || c = .scalar 'E'

/-- A number with a fraction, an exponent or both, or one of the special numbers. -/
def float? (t : Text) : Option Binary64 := do
  let body := (splitSign t).2
  if body = ("inf" : Text) ∨ body = ("nan" : Text) then Binary64.ofText? t
  else
    let whole := body.takeWhile fun c => isDigit c || c = .scalar '_'
    let rest := body.drop whole.length
    let _ ← plainDigits? whole
    let fraction := (rest.takeWhile fun c => !isExponentMark c)
    let power := rest.drop fraction.length
    match fraction with
    | [] => pure ()
    | point :: ds => if point = .scalar '.' then (Numeral.digits? ds).map fun _ => () else none
    match power with
    | [] => pure ()
    | _ :: ds => (Numeral.digits? (splitSign ds).2).map fun _ => ()
    if fraction.isEmpty && power.isEmpty then none else Binary64.ofText? t

/-! ### Dates and times -/

/-- A number of just so many digits. -/
def fixed? (width : Nat) (t : Text) : Option Nat :=
  if t.length = width && t.all isDigit then (Numeral.digits? t).map Numeral.valueOf else none

def date? (t : Text) : Option Date := do
  match Text.fields (.scalar '-') t with
  | [y, m, d] =>
    let date : Date := ⟨← fixed? 4 y, ← fixed? 2 m, ← fixed? 2 d⟩
    if date.isValid then some date else none
  | _ => none

/-- The first six digits of a fraction of a second. -/
def microseconds? (t : Text) : Option Nat :=
  if t.isEmpty then none
  else fixed? 6 ((t ++ List.replicate 6 (CodePoint.scalar '0')).take 6) >>= fun n =>
    if t.all isDigit then some n else none

def time? (t : Text) : Option TimeOfDay := do
  match Text.fields (.scalar ':') t with
  | [h, m, s] =>
    let (second, fraction) := (s.take 2, s.drop 2)
    let micro ← match fraction with
      | [] => some 0
      | point :: ds => if point = .scalar '.' then microseconds? ds else none
    let time : TimeOfDay := ⟨← fixed? 2 h, ← fixed? 2 m, ← fixed? 2 second, micro⟩
    if time.isValid then some time else none
  | _ => none

def isOffsetMark (c : CodePoint) : Bool :=
  c = .scalar 'Z' || c = .scalar 'z' || c = .scalar '+' || c = .scalar '-'

/-- Minutes east of universal time. -/
def offset? (t : Text) : Option Int :=
  match t with
  | [.scalar 'Z'] | [.scalar 'z'] => some 0
  | sign :: rest => do
    match Text.fields (.scalar ':') rest with
    | [h, m] =>
      let hours ← fixed? 2 h
      let minutes ← fixed? 2 m
      if 24 ≤ hours ∨ 60 ≤ minutes then none
      let total : Int := (hours * 60 + minutes : Nat)
      if sign = .scalar '-' then some (-total) else if sign = .scalar '+' then some total else none
    | _ => none
  | [] => none

def isDateTimeMark (c : CodePoint) : Bool :=
  c = .scalar 'T' || c = .scalar 't' || c = .scalar ' '

def moment? (t : Text) : Option Moment :=
  match t.drop 10 with
  | [] => (date? t).map Moment.date <|> (time? t).map Moment.time
  | mark :: rest =>
    if isDateTimeMark mark then do
      let date ← date? (t.take 10)
      let clock := rest.takeWhile fun c => !isOffsetMark c
      let time ← time? clock
      match rest.drop clock.length with
      | [] => some (.dateTime date time none)
      | zone => (offset? zone).map fun o => .dateTime date time (some o)
    else (time? t).map Moment.time

/-! ### Words -/

/-- The characters of numbers, truth values, dates and times. -/
def isWordCharacter (c : CodePoint) : Bool :=
  isDigit c || isLetter c || c = .scalar '+' || c = .scalar '-' || c = .scalar '_' ||
    c = .scalar '.' || c = .scalar ':'

def ofWord? (word : Text) : Option Value :=
  if word = ("true" : Text) then some (.bool true)
  else if word = ("false" : Text) then some (.bool false)
  else (integer? word).map Value.int <|> (float? word).map Value.float <|>
    (moment? word).map Value.moment

/-- A value that is one word. A date may go on after one space with a time. -/
def word (t : Text) : Option (Value × Text) := do
  let first := t.takeWhile isWordCharacter
  let rest := t.drop first.length
  let second := (rest.drop 1).takeWhile isWordCharacter
  if (date? first).isSome && rest.head? = some (.scalar ' ') && second.head?.any isDigit then
    return (← ofWord? (first ++ .scalar ' ' :: second), rest.drop (1 + second.length))
  else return (← ofWord? first, rest)

end LayeredConfig.Toml
