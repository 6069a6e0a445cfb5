import LayeredConfig.Fault
import LayeredConfig.Text.Blank

/-! Reading property files. Physical lines are joined into logical lines, a logical line is cut
into a key and a value, and escapes in both are resolved. -/

namespace LayeredConfig.Properties

def backslash : CodePoint := .scalar '\\'

/-- The blanks of the format: space, tab and form feed. -/
def isMargin (c : CodePoint) : Bool := c = .scalar ' ' || c = .scalar '\t' || c = .scalar '\x0c'

def isSeparator (c : CodePoint) : Bool := c = .scalar '=' || c = .scalar ':'

def isCommentMark (c : CodePoint) : Bool := c = .scalar '#' || c = .scalar '!'

def trimMargin (t : Text) : Text := t.dropWhile isMargin

/-- Lines that are empty or a comment, seen without their margin. -/
def isIgnored (line : Text) : Bool := line.head?.all isCommentMark

def trailingBackslashes (line : Text) : Nat := (line.reverse.takeWhile (· = backslash)).length

/-- A line that ends in an odd number of backslashes goes on in the next line. -/
def continues (line : Text) : Bool := trailingBackslashes line % 2 = 1

/-- The logical lines of physical lines, after a line that was left open. An ignored line
inside an open one is part of it. -/
def joinLines : Option Text → List Text → List Text
  | pending, [] => pending.toList
  | none, line :: rest =>
    if isIgnored (trimMargin line) then joinLines none rest
    else if continues (trimMargin line) then joinLines (some (trimMargin line).dropLast) rest
    else trimMargin line :: joinLines none rest
  | some pending, line :: rest =>
    if continues (pending ++ trimMargin line) then
      joinLines (some (pending ++ trimMargin line).dropLast) rest
    else (pending ++ trimMargin line) :: joinLines none rest

def logicalLines (t : Text) : List Text := joinLines none t.lines

/-- The key as it is written, and the rest from the first separator or blank that no backslash
stands before. -/
def spanKey : Text → Text × Text
  | [] => ([], [])
  | .scalar '\\' :: c :: rest => (backslash :: c :: (spanKey rest).1, (spanKey rest).2)
  | c :: rest =>
    if isSeparator c || isMargin c then ([], c :: rest)
    else (c :: (spanKey rest).1, (spanKey rest).2)

/-- What is left of a line after its key, the blanks around the separator and one separator. -/
def dropSeparator (rest : Text) : Text :=
  match trimMargin rest with
  | [] => []
  | c :: rest => if isSeparator c then trimMargin rest else c :: rest

/-- The character that a backslash and a character stand for; a `u` needs four more. -/
def unescaped (c : CodePoint) : CodePoint :=
  if c = .scalar 't' then .scalar '\t'
  else if c = .scalar 'n' then .scalar '\n'
  else if c = .scalar 'r' then .scalar '\r'
  else if c = .scalar 'f' then .scalar '\x0c'
  else c

def codeUnit? (a b c d : CodePoint) : Option CodePoint := do
  CodePoint.ofNat?
    (4096 * (← a.hexValue?) + 256 * (← b.hexValue?) + 16 * (← c.hexValue?) + (← d.hexValue?))

def unescape : Text → Except Fault Text
  | [] => .ok []
  | .scalar '\\' :: .scalar 'u' :: a :: b :: c :: d :: rest =>
    match codeUnit? a b c d with
    | some u => (unescape rest).map (u :: ·)
    | none => .error (.malformedEscape [a, b, c, d])
  | .scalar '\\' :: .scalar 'u' :: short => .error (.malformedEscape short)
  | .scalar '\\' :: c :: rest => (unescape rest).map (unescaped c :: ·)
  | c :: rest => (unescape rest).map (c :: ·)

def entry (line : Text) : Except Fault (Text × Text) := do
  let key ← unescape (spanKey line).1
  let value ← unescape (dropSeparator (spanKey line).2)
  return (key, value)

/-- The properties in a text. A repeated key keeps its first place and its last value. -/
def read (t : Text) : Except Fault (OrderedMap Text) :=
  ((logicalLines t).mapM entry).map OrderedMap.ofList

end LayeredConfig.Properties
