import LayeredConfig.Text.Blank
import LayeredConfig.Text.Digit

/-! Whole numbers written as text, and the decimal texts that read as whole numbers. Both
directions stop at 4300 digits. -/

namespace LayeredConfig.Numeral

/-- The digits of a number, the first one leading, in front of `tail`. -/
def digitsOnto (base n : Nat) (tail : Text) : Text :=
  if base < 2 ∨ n < base then CodePoint.digit n :: tail
  else digitsOnto base (n / base) (CodePoint.digit (n % base) :: tail)
termination_by n
decreasing_by exact Nat.div_lt_self (by omega) (by omega)

def digits (base n : Nat) : Text := digitsOnto base n []

def ofNat (n : Nat) : Text := digits 10 n

def ofInt (n : Int) : Text := if n < 0 then .scalar '-' :: ofNat n.natAbs else ofNat n.natAbs

def maxDigits : Nat := 4300

/-- The decimal text of a number of at most 4300 digits. -/
def ofInt? (n : Int) : Option Text :=
  if (ofNat n.natAbs).length ≤ maxDigits then some (ofInt n) else none

/-- What may follow a digit: more digits, each with at most one underscore before it. -/
def moreDigits? : Text → Option (List Nat)
  | [] => some []
  | c :: rest =>
    match c.decimalValue? with
    | some d => (moreDigits? rest).map (d :: ·)
    | none =>
      match rest with
      | [] => none
      | c' :: rest' =>
        if c = '_' then c'.decimalValue?.bind fun d => (moreDigits? rest').map (d :: ·) else none

/-- The digits of an unsigned number: at least one, and no underscore but between two. -/
def digits? : Text → Option (List Nat)
  | [] => none
  | c :: rest => c.decimalValue?.bind fun d => (moreDigits? rest).map (d :: ·)

def valueOf (ds : List Nat) : Nat := ds.foldl (fun n d => 10 * n + d) 0

def toNat? (t : Text) : Option Nat :=
  (digits? t).bind fun ds => if ds.length ≤ maxDigits then some (valueOf ds) else none

/-- Reads an optional sign and decimal digits of any script, with blanks around them. -/
def toInt? (t : Text) : Option Int :=
  match t.trim with
  | .scalar '-' :: rest => (toNat? rest).map fun n => -(n : Int)
  | .scalar '+' :: rest => (toNat? rest).map Int.ofNat
  | rest => (toNat? rest).map Int.ofNat

end LayeredConfig.Numeral
