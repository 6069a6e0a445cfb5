import LayeredConfig.Value.Rendering

/-! Writing flat maps as TOML, one line for each entry. -/

namespace LayeredConfig.Toml

def isBareKey (key : Text) : Bool :=
  !key.isEmpty && key.all fun c =>
    (48 ≤ c.value && c.value ≤ 57) || (65 ≤ c.value && c.value ≤ 90) ||
      (97 ≤ c.value && c.value ≤ 122) || c = .scalar '_' || c = .scalar '-'

def escapeInString (c : CodePoint) : Text :=
  if c = .scalar '"' ∨ c = .scalar '\\' then [.scalar '\\', c]
  else if c = .scalar '\n' then "\\n"
  else if c = .scalar '\r' then "\\r"
  else if c = .scalar '\t' then "\\t"
  else if c.value < 0x20 ∨ c.value = 0x7F then ("\\u" : Text) ++ Text.hex 4 c.value
  else [c]

def stringText (t : Text) : Text := .scalar '"' :: t.flatMap escapeInString ++ [.scalar '"']

def keyText (key : Text) : Text := if isBareKey key then key else stringText key

/-- Texts are quoted, truth values are in lower case and all else is written plainly. -/
def valueText? : Value → Option Text
  | .text t => some (stringText t)
  | v => v.settingText?

def write? (entries : List (Text × Value)) : Option Text := do
  let lines ← entries.mapM fun (e : Text × Value) => do
    return keyText e.1 ++ (" = " : Text) ++ (← valueText? e.2) ++ [.scalar '\n']
  return lines.flatten

end LayeredConfig.Toml
