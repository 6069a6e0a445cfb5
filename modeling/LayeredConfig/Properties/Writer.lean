import LayeredConfig.Properties.Reader

/-! Writing property files, one line for each entry. -/

namespace LayeredConfig.Properties

def escapeAlways? (c : CodePoint) : Option Text :=
  if c = backslash then some "\\\\"
  else if c = .scalar '\n' then some "\\n"
  else if c = .scalar '\r' then some "\\r"
  else if c = .scalar '\t' then some "\\t"
  else if c = .scalar '\x0c' then some "\\f"
  else none

/-- In a key, separators, comment marks and spaces are escaped too. -/
def escapeInKey (c : CodePoint) : Text :=
  (escapeAlways? c).getD
    (if isSeparator c || isCommentMark c || c = .scalar ' ' then [backslash, c] else [c])

def escapeInValue (c : CodePoint) : Text := (escapeAlways? c).getD [c]

def escapeKey (t : Text) : Text := t.flatMap escapeInKey

/-- In a value only a space in front is escaped beside what always is. -/
def escapeValue : Text → Text
  | [] => []
  | c :: rest =>
    (if c = .scalar ' ' then [backslash, c] else escapeInValue c) ++ rest.flatMap escapeInValue

def line (key value : Text) : Text := escapeKey key ++ .scalar '=' :: escapeValue value

def write (entries : List (Text × Text)) : Text :=
  entries.flatMap fun e => line e.1 e.2 ++ [.scalar '\n']

def writeValues? (entries : List (Value × Value)) : Option Text := do
  let texts ← entries.mapM fun (e : Value × Value) => do
    return (← e.1.plain?, ← e.2.settingText?)
  return write texts

end LayeredConfig.Properties
