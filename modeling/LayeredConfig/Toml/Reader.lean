import LayeredConfig.Toml.Scalar
import LayeredConfig.Toml.Table

/-! Reading TOML documents. The functions that call each other take a budget, which the wrapper
sets to the length of the text: each step down uses up a character at least. -/

namespace LayeredConfig.Toml

def skipSpaces (t : Text) : Text := t.dropWhile isSpace

/-- Skips a comment; a control character in it is a fault. -/
def skipComment (t : Text) : Option Text :=
  match t with
  | .scalar '#' :: rest =>
    let body := rest.takeWhile fun c => !isNewline c
    if body.any isControl then none else some (rest.drop body.length)
  | t => some t

/-- Skips blanks, line ends and comments, as between the items of an array. -/
def skipLines : Nat → Text → Option Text
  | 0, t => some t
  | budget + 1, t =>
    match skipSpaces t with
    | .scalar '\n' :: rest => skipLines budget rest
    | .scalar '#' :: rest => do skipLines budget (← skipComment (.scalar '#' :: rest))
    | t => some t

def isBareCharacter (c : CodePoint) : Bool :=
  isDigit c || isLetter c || c = .scalar '_' || c = .scalar '-'

def keyPart (t : Text) : Option (Text × Text) :=
  match keyString t with
  | some r => some r
  | none =>
    let bare := t.takeWhile isBareCharacter
    if bare.isEmpty then none else some (bare, t.drop bare.length)

/-- A key of one or more parts with dots between them. -/
def keyPath : Nat → Text → Option (List Text × Text)
  | 0, _ => none
  | budget + 1, t => do
    let (part, rest) ← keyPart t
    match skipSpaces rest with
    | .scalar '.' :: rest =>
      let (parts, rest) ← keyPath budget (skipSpaces rest)
      return (part :: parts, rest)
    | rest => return ([part], rest)

mutual

/-- A value; one in braces is a sealed table. -/
def node : Nat → Text → Option (Node × Text)
  | 0, _ => none
  | budget + 1, t =>
    match t with
    | .scalar '[' :: rest => do
      let (items, rest) ← items budget (← skipLines rest.length rest)
      return (.value (.list items), rest)
    | .scalar '{' :: rest => do
      let rest := skipSpaces rest
      match rest with
      | .scalar '}' :: rest => return (.table .sealed [], rest)
      | rest =>
        let (entries, rest) ← members budget [] rest
        return (.table .sealed entries, rest)
    | t =>
      if t.head?.any fun c => c = quote || c = apostrophe then
        (string t).map fun r => (.value (.text r.1), r.2)
      else (word t).map fun r => (.value r.1, r.2)

/-- The items of an array up to its end. A comma may follow the last one. -/
def items : Nat → Text → Option (List Value × Text)
  | 0, _ => none
  | budget + 1, t =>
    match t with
    | .scalar ']' :: rest => some ([], rest)
    | t => do
      let (first, rest) ← node budget t
      let rest ← skipLines rest.length rest
      match rest with
      | .scalar ',' :: rest =>
        let (others, rest) ← items budget (← skipLines rest.length rest)
        return (first.toValue :: others, rest)
      | .scalar ']' :: rest => return ([first.toValue], rest)
      | _ => none

/-- The entries of a table in braces up to its end, after those already read. -/
def members : Nat → Entries → Text → Option (Entries × Text)
  | 0, _, _ => none
  | budget + 1, entries, t => do
    let (path, rest) ← keyPath t.length t
    match rest with
    | .scalar '=' :: rest =>
      let (value, rest) ← node budget (skipSpaces rest)
      let entries ← Entries.add value path entries
      match skipSpaces rest with
      | .scalar ',' :: rest => members budget entries (skipSpaces rest)
      | .scalar '}' :: rest => return (entries, rest)
      | _ => none
    | _ => none

end

/-- A document as far as it has been read, and the path of the last header. -/
structure Draft where
  entries : Entries
  header : List Text

/-- Changes the table of a header given by all but the last part of its path. -/
def Draft.open? (d : Draft) (path : List Text) (declare : Text → Entries → Option Entries) :
    Option Draft := do
  let last ← path.getLast?
  return ⟨← Entries.within (declare last) path.dropLast d.entries, path⟩

def header (d : Draft) (t : Text) : Option (Draft × Text) :=
  match t with
  | .scalar '[' :: rest => do
    let (path, rest) ← keyPath rest.length (skipSpaces rest)
    match rest with
    | .scalar ']' :: .scalar ']' :: rest => return (← d.open? path Entries.declareNext, rest)
    | _ => none
  | t => do
    let (path, rest) ← keyPath t.length (skipSpaces t)
    match rest with
    | .scalar ']' :: rest => return (← d.open? path Entries.declare, rest)
    | _ => none

def assignment (d : Draft) (t : Text) : Option (Draft × Text) := do
  let (path, rest) ← keyPath t.length t
  match rest with
  | .scalar '=' :: rest =>
    let (value, rest) ← node rest.length.succ (skipSpaces rest)
    let entries ← Entries.within (Entries.add value path) d.header d.entries
    return (⟨entries, d.header⟩, rest)
  | _ => none

def statements : Nat → Draft → Text → Option Draft
  | 0, _, _ => none
  | budget + 1, d, t => do
    let t := skipSpaces t
    let (d, rest) ← match t with
      | [] => some (d, [])
      | .scalar '[' :: rest => header d rest
      | c :: rest =>
        if isNewline c || c = .scalar '#' then some (d, c :: rest) else assignment d (c :: rest)
    match ← skipComment (skipSpaces rest) with
    | [] => some d
    | .scalar '\n' :: rest => statements budget d rest
    | _ => none

def read (t : Text) : Option (List (Value × Value)) :=
  (statements (t.length + 1) ⟨[], []⟩ t).map fun d => entryValues d.entries

end LayeredConfig.Toml
