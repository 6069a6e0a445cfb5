import LayeredConfig.Binary64

/-! Binary floating point numbers written with a given number of decimal places, rounded from
the exact value with halves going to the even neighbour. -/

namespace LayeredConfig.Binary64

/-- Digits with a point before the last so many of them, and a zero in front if there would be
none. The point is left out where no digit follows, unless it is asked for. -/
def withPoint (keepPoint : Bool) (places : Nat) (ds : Text) : Text :=
  let ds := Text.padStart (places + 1) '0' ds
  let whole := ds.take (ds.length - places)
  let fraction := ds.drop (ds.length - places)
  whole ++ if fraction.isEmpty && !keepPoint then [] else .scalar '.' :: fraction

def fixedText (keepPoint : Bool) (places : Nat) (num den : Nat) : Text :=
  withPoint keepPoint places (Numeral.ofNat (roundDiv (num * Nat.pow 10 places) den))

/-- The first so many digits of a quotient after the leading one, and the exponent of ten of the
leading digit. -/
def leadingDigits (places : Nat) (num den : Nat) : Nat × Int :=
  if num = 0 then (0, 0)
  else
    let e := floorLog10 num den
    let (n, d) := scaleRatio 10 num den (places - e)
    let digits := roundDiv n d
    if digits = Nat.pow 10 (places + 1) then (Nat.pow 10 places, e + 1) else (digits, e)

def scientificText (keepPoint : Bool) (places : Nat) (num den : Nat) : Text :=
  let (digits, e) := leadingDigits places num den
  withPoint keepPoint places (Numeral.ofNat digits) ++ .scalar 'e' :: exponentText e

/-- The digits after the point without zeros at the end, and no point before nothing. -/
def dropTrailingZeros (t : Text) : Text :=
  if t.contains (.scalar '.') then
    Text.trimEnd (· = .scalar '.') (Text.trimEnd (· = .scalar '0') t)
  else t

/-- A number with so many digits, with an exponent where it is smaller than `0.0001` or has
more digits before the point. -/
def generalText (keepZeros : Bool) (figures : Nat) (num den : Nat) : Text :=
  let places := max figures 1 - 1
  let (digits, e) := leadingDigits places num den
  let tidy (t : Text) : Text := if keepZeros then t else dropTrailingZeros t
  if -4 ≤ e ∧ e ≤ places then
    tidy (withPoint keepZeros (places - e).toNat (Numeral.ofNat digits))
  else tidy (withPoint keepZeros places (Numeral.ofNat digits)) ++ .scalar 'e' :: exponentText e

end LayeredConfig.Binary64
