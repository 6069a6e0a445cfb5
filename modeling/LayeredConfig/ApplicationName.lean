import LayeredConfig.Fault

/-! Application names. A name is a node of a coordination tree and a segment of a file path, so
neither may refuse a character of it. -/

namespace LayeredConfig.ApplicationName

/-- Control characters, surrogates, the private use area, the last specials and everything
beyond the basic plane. -/
def isInvalid (c : CodePoint) : Bool :=
  let n := c.value
  (0x0 < n && n ≤ 0x1F) || (0x7F ≤ n && n ≤ 0x9F) || (0xD800 ≤ n && n ≤ 0xF8FF)
    || (0xFFF0 ≤ n && n ≤ 0xFFFF) || 0xFFFF < n

def isPathSeparator (c : CodePoint) : Bool :=
  c = .scalar '/' || c = .scalar '.' || c = .scalar ':'

def flaw? (c : CodePoint) : Option NameFlaw :=
  if c.value = 0 then some .null
  else if isPathSeparator c then some (.separator c)
  else if isInvalid c then some (.invalid c)
  else none

/-- The first flaw of a text and its index, counted in code points from `index`. -/
def firstFlaw? (index : Nat) : Text → Option (NameFlaw × Nat)
  | [] => none
  | c :: rest =>
    match flaw? c with
    | some flaw => some (flaw, index)
    | none => firstFlaw? (index + 1) rest

def checkText (name : Text) : Except Fault Text :=
  if name.isEmpty then .error .nameEmpty
  else match firstFlaw? 0 name with
    | some (flaw, index) => .error (.nameRefused name flaw index)
    | none => .ok name

def check : Value → Except Fault Text
  | .null => .error .nameNull
  | .text name => checkText name
  | v => .error (.nameNotText v)

end LayeredConfig.ApplicationName
