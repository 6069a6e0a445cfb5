import LayeredConfig.Text.Quoted

/-! Text as bytes in UTF-8. Names known to the system may hold bytes that are not UTF-8; such a
byte stands in a text as one of the surrogates U+DC80 to U+DCFF, and no other surrogate can be
written. -/

namespace LayeredConfig

/-- Surrogates that cannot be written, from the first to the last place of their run. -/
structure Unwritable where
  culprit : CodePoint
  first : Nat
  last : Nat
deriving DecidableEq, Repr

def Unwritable.message (u : Unwritable) : Text :=
  if u.first = u.last then
    ("'utf-8' codec can't encode character '" : Text) ++
      Text.escapeBetween '\'' false u.culprit ++ ("' in position " : Text) ++
      Numeral.ofNat u.first ++ (": surrogates not allowed" : Text)
  else
    ("'utf-8' codec can't encode characters in position " : Text) ++ Numeral.ofNat u.first ++
      .scalar '-' :: Numeral.ofNat u.last ++ (": surrogates not allowed" : Text)

namespace CodePoint

def strayByte? (c : CodePoint) : Option UInt8 :=
  if 0xDC80 ≤ c.value ∧ c.value ≤ 0xDCFF then some (UInt8.ofNat (c.value - 0xDC00)) else none

/-- The bytes of a character, or the byte that a surrogate stands for. -/
def systemBytes? (c : CodePoint) : Option (List UInt8) :=
  match c with
  | scalar s => some (String.utf8EncodeChar s)
  | c => c.strayByte?.map fun b => [b]

end CodePoint

namespace Text

/-- The bytes of a text whose first character is at the given place. -/
def systemBytesFrom (place : Nat) : Text → Except Unwritable (List UInt8)
  | [] => .ok []
  | c :: rest =>
    match c.systemBytes? with
    | some bytes => (systemBytesFrom (place + 1) rest).map (bytes ++ ·)
    | none => .error ⟨c, place, place + (rest.takeWhile CodePoint.isSurrogate).length⟩

/-- The bytes by which the system knows a name. -/
def systemBytes (t : Text) : Except Unwritable (List UInt8) := systemBytesFrom 0 t

/-- Reads bytes that must all be UTF-8. -/
def ofUtf8? (bytes : ByteArray) : Option Text :=
  (String.fromUTF8? bytes).map fun s => s.toList.map .scalar

end Text

end LayeredConfig
