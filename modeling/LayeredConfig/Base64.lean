import LayeredConfig.Fault
import LayeredConfig.Text.Blank

/-! Bytes written in base 64 with the standard alphabet and padding, on one line. -/

namespace LayeredConfig.Base64

def symbol (n : Nat) : CodePoint :=
  if n < 26 then CodePoint.ascii (65 + n)
  else if n < 52 then CodePoint.ascii (71 + n)
  else if n < 62 then CodePoint.ascii (n - 4)
  else if n = 62 then .scalar '+'
  else .scalar '/'

def pad : CodePoint := .scalar '='

def symbolValue? (c : CodePoint) : Option Nat :=
  let n := c.value
  if 65 ≤ n ∧ n ≤ 90 then some (n - 65)
  else if 97 ≤ n ∧ n ≤ 122 then some (n - 71)
  else if 48 ≤ n ∧ n ≤ 57 then some (n + 4)
  else if c = .scalar '+' then some 62
  else if c = .scalar '/' then some 63
  else none

/-- Three bytes make four symbols; a rest of two or one is padded. -/
def encode : List UInt8 → Text
  | [] => []
  | [a] => [symbol (a.toNat / 4), symbol (a.toNat % 4 * 16), pad, pad]
  | [a, b] =>
    [symbol (a.toNat / 4), symbol (a.toNat % 4 * 16 + b.toNat / 16),
      symbol (b.toNat % 16 * 4), pad]
  | a :: b :: c :: rest =>
    symbol (a.toNat / 4) :: symbol (a.toNat % 4 * 16 + b.toNat / 16) ::
      symbol (b.toNat % 16 * 4 + c.toNat / 64) :: symbol (c.toNat % 64) :: encode rest

def firstByte (x y : Nat) : UInt8 := UInt8.ofNat (x * 4 + y / 16)
def secondByte (y z : Nat) : UInt8 := UInt8.ofNat (y % 16 * 16 + z / 4)
def thirdByte (z w : Nat) : UInt8 := UInt8.ofNat (z % 4 * 64 + w)

/-- Reads groups of four symbols. Padding completes the last group, or stands alone in any
length after a whole group; bits that padding leaves over are dropped. -/
def decodeGroups? (begun : Bool) : Text → Option (List UInt8)
  | a :: b :: c :: d :: rest =>
    if a = pad then
      if begun && (b :: c :: d :: rest).all (· = pad) then some [] else none
    else do
      let x ← symbolValue? a
      let y ← symbolValue? b
      if c = pad then
        if d = pad ∧ rest = [] then some [firstByte x y] else none
      else
        let z ← symbolValue? c
        if d = pad then
          if rest = [] then some [firstByte x y, secondByte y z] else none
        else
          let w ← symbolValue? d
          let bytes ← decodeGroups? true rest
          return firstByte x y :: secondByte y z :: thirdByte z w :: bytes
  | short => if short.all (· = pad) && (begun || short.isEmpty) then some [] else none

/-- Reads a text with blanks around it. -/
def decode (t : Text) : Except Fault (List UInt8) :=
  match decodeGroups? false t.trim with
  | some bytes => .ok bytes
  | none => .error .notBase64

end LayeredConfig.Base64
