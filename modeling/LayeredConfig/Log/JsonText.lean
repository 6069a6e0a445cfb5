import LayeredConfig.Fault

/-! Values as JSON in ASCII, on one line. What JSON has no form for is written as its plain
text. -/

namespace LayeredConfig.JsonText

inductive Flaw where
  | badKey (typeName : Text)
  | tooManyDigits
deriving DecidableEq, Repr

def Flaw.message : Flaw → Text
  | badKey typeName =>
    ("keys must be str, int, float, bool or None, not " : Text) ++ typeName
  | tooManyDigits => Fault.tooManyDigits.message

def unit (n : Nat) : Text := ("\\u" : Text) ++ Text.hex 4 n

/-- The two code units of a character beyond the basic plane. -/
def highUnit (n : Nat) : Nat := 0xD800 + (n - 0x10000) / 0x400
def lowUnit (n : Nat) : Nat := 0xDC00 + (n - 0x10000) % 0x400

def escape (c : CodePoint) : Text :=
  if c = .scalar '"' ∨ c = .scalar '\\' then [.scalar '\\', c]
  else if c = .scalar '\n' then "\\n"
  else if c = .scalar '\r' then "\\r"
  else if c = .scalar '\t' then "\\t"
  else if c = .scalar '\x08' then "\\b"
  else if c = .scalar '\x0c' then "\\f"
  else if 0x20 ≤ c.value ∧ c.value < 0x7F then [c]
  else if c.value < 0x10000 then unit c.value
  else unit (highUnit c.value) ++ unit (lowUnit c.value)

def string (t : Text) : Text := .scalar '"' :: t.flatMap escape ++ [.scalar '"']

def float : Binary64 → Text
  | .nan => "NaN"
  | .infinite true => "-Infinity"
  | .infinite false => "Infinity"
  | x => x.text

def word (b : Bool) : Text := if b then "true" else "false"

def digits (n : Int) : Except Flaw Text :=
  match Numeral.ofInt? n with
  | some t => .ok t
  | none => .error .tooManyDigits

def key : Value → Except Flaw Text
  | .null => .ok "null"
  | .bool b => .ok (word b)
  | .int n => digits n
  | .float x => .ok (float x)
  | .text t => .ok t
  | v => .error (.badKey v.typeName)

mutual

def write : Value → Except Flaw Text
  | .null => .ok "null"
  | .bool b => .ok (word b)
  | .int n => digits n
  | .float x => .ok (float x)
  | .text t => .ok (string t)
  | .bytes bs => .ok (string (Text.quotedBytes bs))
  | .moment m => .ok (string m.text)
  | .list items => do return .scalar '[' :: Text.join ", " (← writeItems items) ++ [.scalar ']']
  | .map entries => do
    return .scalar '{' :: Text.join ", " (← writeEntries entries) ++ [.scalar '}']

def writeItems : List Value → Except Flaw (List Text)
  | [] => .ok []
  | v :: rest => do return (← write v) :: (← writeItems rest)

def writeEntries : List (Value × Value) → Except Flaw (List Text)
  | [] => .ok []
  | (k, v) :: rest => do
    return (string (← key k) ++ (": " : Text) ++ (← write v)) :: (← writeEntries rest)

end

/-- A text with the pairs of surrogates that stand together made one character, as a reader of
the escapes sees it. -/
def joinUnits : Text → Text
  | [] => []
  | [c] => [c]
  | .surrogate a :: .surrogate b :: rest =>
    if a.val < 0x400 ∧ 0x400 ≤ b.val then
      .scalar (Char.ofNat (0x10000 + a.val * 0x400 + (b.val - 0x400))) :: joinUnits rest
    else .surrogate a :: joinUnits (.surrogate b :: rest)
  | c :: rest => c :: joinUnits rest

mutual

/-- The value that a reader of the written text sees. -/
def reread : Value → Value
  | .text t => .text (joinUnits t)
  | .bytes bs => .text (Text.quotedBytes bs)
  | .moment m => .text m.text
  | .list items => .list (rereadItems items)
  | .map entries => Value.mapOf (rereadEntries entries)
  | v => v

def rereadItems : List Value → List Value
  | [] => []
  | v :: rest => reread v :: rereadItems rest

def rereadEntries : List (Value × Value) → List (Value × Value)
  | [] => []
  | (k, v) :: rest =>
    ((key k).toOption.map fun name => (Value.text (joinUnits name), reread v)).toList ++
      rereadEntries rest

end

end LayeredConfig.JsonText
