import LayeredConfig.Fault

/-! Records given field by field with values of any type. Each field is read on its own, and
all flaws are collected in the order of the fields. -/

namespace LayeredConfig.Field

abbrev Reading (α : Type) := Except (List Flaw) α

def flaw (path : List Value) (kind message : Text) : Flaw := ⟨path, kind, message⟩

def missing (path : List Value) : Flaw := flaw path "missing" "Field required"

def notText (path : List Value) : Flaw :=
  flaw path "string_type" "Input should be a valid string"

def notUnicode (path : List Value) : Flaw :=
  flaw path "string_unicode"
    "Input should be a valid string, unable to parse raw data as a unicode string"

def notMap (path : List Value) : Flaw :=
  flaw path "dict_type" "Input should be a valid dictionary"

/-- A flaw found by a check of this library's own. -/
def refused (path : List Value) (reason : Text) : Flaw :=
  flaw path "value_error" (("Value error, " : Text) ++ reason)

/-- A text, which is taken as it is, or bytes that are UTF-8. -/
def text (path : List Value) : Value → Reading Text
  | .text t => .ok t
  | .bytes bs =>
    match Text.ofUtf8? ⟨bs.toArray⟩ with
    | some t => .ok t
    | none => .error [notUnicode path]
  | _ => .error [notText path]

def trueWords : List Text := ["1", "on", "t", "true", "y", "yes"]
def falseWords : List Text := ["0", "off", "f", "false", "n", "no"]

def unclearTruth (path : List Value) : Flaw :=
  flaw path "bool_parsing" "Input should be a valid boolean, unable to interpret input"

def notTruth (path : List Value) : Flaw :=
  flaw path "bool_type" "Input should be a valid boolean"

def truthOfWord (path : List Value) (word : Text) : Reading Bool :=
  if trueWords.contains word.lower then .ok true
  else if falseWords.contains word.lower then .ok false
  else .error [unclearTruth path]

def truthOfNumber (path : List Value) (n : Int) : Reading Bool :=
  if n = 1 then .ok true else if n = 0 then .ok false else .error [unclearTruth path]

/-- A truth value, one of its words in any case, or the number zero or one. -/
def truth (path : List Value) : Value → Reading Bool
  | .bool b => .ok b
  | .int n => truthOfNumber path n
  | .float x =>
    match x.truncate? with
    | some n =>
      if (Value.float x).isSameKey (.int n) then truthOfNumber path n else .error [notTruth path]
    | none => .error [notTruth path]
  | .text t => truthOfWord path t
  | .bytes bs =>
    match Text.ofUtf8? ⟨bs.toArray⟩ with
    | some t => truthOfWord path t
    | none => .error [unclearTruth path]
  | _ => .error [notTruth path]

/-- A surrogate is shown as three replacement characters, one for each byte. -/
def shownKey (t : Text) : Text :=
  t.flatMap fun c => if c.isSurrogate then List.replicate 3 (.scalar '\ufffd') else [c]

/-- The whole numbers that fit 64 bits. -/
def leastWord : Int := -0x8000000000000000
def greatestWord : Int := 0x7FFFFFFFFFFFFFFF

/-- How a map key is named in the path of a flaw: numbers as they are while they fit 64 bits,
texts readably, and all else by its literal. -/
def pathOfKey : Value → Value
  | .bool b => .int (if b then 1 else 0)
  | .int n =>
    if leastWord ≤ n ∧ n ≤ greatestWord then .int n else .text ((Value.int n).literal?.getD [])
  | .text t => .text (shownKey t)
  | v => .text (v.literal?.getD [])

def both {α β : Type} (a : Reading α) (b : Reading β) : Reading (α × β) :=
  match a, b with
  | .ok x, .ok y => .ok (x, y)
  | .error f, .ok _ => .error f
  | .ok _, .error g => .error g
  | .error f, .error g => .error (f ++ g)

/-- Texts by text. Of an entry the key is read before the value. -/
def textEntries (path : List Value) : List (Value × Value) → Reading (List (Text × Text))
  | [] => .ok []
  | (k, v) :: rest =>
    let here := path ++ [pathOfKey k]
    match both (both (text (here ++ [.text "[key]"]) k) (text here v)) (textEntries path rest) with
    | .ok (entry, entries) => .ok (entry :: entries)
    | .error flaws => .error flaws

theorem both_eq_ok {α β : Type} {a : Reading α} {b : Reading β} {x : α} {y : β}
    (h : both a b = .ok (x, y)) : a = .ok x ∧ b = .ok y := by
  cases a <;> cases b <;> simp_all [both]

def textMap (path : List Value) : Value → Reading (OrderedMap Text)
  | .map entries => (textEntries path entries).map OrderedMap.ofList
  | _ => .error [notMap path]

end LayeredConfig.Field
