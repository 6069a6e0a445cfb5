import LayeredConfig.Numeral
import LayeredConfig.Text.Printable

/-! Quoted text and quoted bytes. Single quotes are used unless the text has a single quote and
no double quote; what is not printable is escaped by its number. -/

namespace LayeredConfig.Text

/-- The number in base sixteen with at least so many digits. -/
def hex (width n : Nat) : Text := padStart width (.scalar '0') (Numeral.digits 16 n)

def quoteMark (hasSingle hasDouble : Bool) : Char :=
  if hasSingle && !hasDouble then '"' else '\''

/-- How a character is written between quotes, given whether it is shown as itself. -/
def escapeBetween (mark : Char) (isShown : Bool) (c : CodePoint) : Text :=
  if c = .scalar mark ∨ c = .scalar '\\' then [.scalar '\\', c]
  else if c = .scalar '\n' then "\\n"
  else if c = .scalar '\r' then "\\r"
  else if c = .scalar '\t' then "\\t"
  else if isShown then [c]
  else if c.value < 0x100 then ("\\x" : Text) ++ hex 2 c.value
  else if c.value < 0x10000 then ("\\u" : Text) ++ hex 4 c.value
  else ("\\U" : Text) ++ hex 8 c.value

def quoted (t : Text) : Text :=
  let mark := quoteMark (t.contains (.scalar '\'')) (t.contains (.scalar '"'))
  .scalar mark :: t.flatMap (fun c => escapeBetween mark c.isPrintable c) ++ [.scalar mark]

/-- Bytes are quoted like the characters with their numbers, and only ASCII is shown. -/
def quotedBytes (bytes : List UInt8) : Text :=
  let t : Text := bytes.map fun b => CodePoint.ascii b.toNat
  let mark := quoteMark (t.contains (.scalar '\'')) (t.contains (.scalar '"'))
  .scalar 'b' :: .scalar mark ::
    t.flatMap (fun c => escapeBetween mark (0x20 ≤ c.value && c.value < 0x7F) c) ++ [.scalar mark]

end LayeredConfig.Text
