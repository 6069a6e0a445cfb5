import LayeredConfig.Text.Quoted
import LayeredConfig.Value

/-! Values written as text. A whole number of more than 4300 digits has no text, and no value
that holds one has. -/

namespace LayeredConfig.Value

mutual

/-- The literal form: text is quoted, items stand in brackets and entries in braces. -/
def literal? : Value → Option Text
  | null => some "None"
  | bool b => some (if b then "True" else "False")
  | int n => Numeral.ofInt? n
  | float x => some x.text
  | text t => some t.quoted
  | bytes bs => some (Text.quotedBytes bs)
  | moment m => some m.literal
  | list items =>
    (itemLiterals? items).map fun ts => .scalar '[' :: Text.join ", " ts ++ [.scalar ']']
  | map entries =>
    (entryLiterals? entries).map fun ts => .scalar '{' :: Text.join ", " ts ++ [.scalar '}']

def itemLiterals? : List Value → Option (List Text)
  | [] => some []
  | v :: rest => do return (← literal? v) :: (← itemLiterals? rest)

def entryLiterals? : List (Value × Value) → Option (List Text)
  | [] => some []
  | (k, v) :: rest => do
    return ((← literal? k) ++ (": " : Text) ++ (← literal? v)) :: (← entryLiterals? rest)

end

/-- The plain form: text and dates are written as they are, all else as a literal. -/
def plain? : Value → Option Text
  | text t => some t
  | moment m => some m.text
  | v => v.literal?

/-- The form in which settings are read: the plain form, with truth values in lower case. -/
def settingText? : Value → Option Text
  | bool b => some (if b then "true" else "false")
  | v => v.plain?

end LayeredConfig.Value
