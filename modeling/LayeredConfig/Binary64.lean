import LayeredConfig.Numeral

/-! Binary floating point numbers of 64 bits, as exact integers. A finite number is a mantissa
times a power of two. The main functions round a quotient to the nearest number and find the
fewest decimal digits that read back. -/

namespace LayeredConfig

inductive Binary64 where
  | nan
  | infinite (negative : Bool)
  | finite (negative : Bool) (mantissa : Nat) (exponent : Int)
deriving DecidableEq, Repr

/-- A quotient rounded to the nearest whole number, a half to the even neighbour. -/
def roundDiv (num den : Nat) : Nat :=
  let q := num / den
  let r := num % den
  if 2 * r < den ∨ (2 * r = den ∧ q % 2 = 0) then q else q + 1

/-- A quotient times a power of a base, again as a quotient. -/
def scaleRatio (base num den : Nat) (power : Int) : Nat × Nat :=
  if 0 ≤ power then (num * base.pow power.toNat, den) else (num, den * base.pow (-power).toNat)

namespace Binary64

def leastExponent : Int := -1074
def greatestExponent : Int := 971
def mantissaBits : Nat := 53

/-- The exponent of two of the leading bit of a quotient. -/
def floorLog2 (num den : Nat) : Int :=
  let d : Int := (num.log2 : Int) - den.log2
  let (n, m) := scaleRatio 2 num den (-d)
  if m ≤ n then d else d - 1

/-- The number nearest to a quotient: of two, the one with the even mantissa. -/
def ofRatio (negative : Bool) (num den : Nat) : Binary64 :=
  if num = 0 ∨ den = 0 then finite negative 0 leastExponent
  else
    let q := max (floorLog2 num den - (mantissaBits - 1 : Nat)) leastExponent
    let (n, d) := scaleRatio 2 num den (-q)
    let m := roundDiv n d
    let (m, q) := if m = Nat.pow 2 mantissaBits then (m / 2, q + 1) else (m, q)
    if greatestExponent < q then infinite negative else finite negative m q

/-- The number nearest to `digits` times a power of ten. Powers far outside the range are
settled without being computed. -/
def ofDecimal (negative : Bool) (digits : Nat) (power : Int) : Binary64 :=
  if digits = 0 then finite negative 0 leastExponent
  else if 400 < power then infinite negative
  else if power + digits.log2 < -400 then finite negative 0 leastExponent
  else
    let (n, d) := scaleRatio 10 digits 1 power
    ofRatio negative n d

def ratio (mantissa : Nat) (exponent : Int) : Nat × Nat := scaleRatio 2 mantissa 1 exponent

def isNegative : Binary64 → Bool
  | nan => false
  | infinite s => s
  | finite s _ _ => s

/-- The exponent of ten of the leading digit of a quotient that is not zero. -/
def floorLog10 (num den : Nat) : Int :=
  let guess := floorLog2 num den * 30103 / 100000
  let reaches (k : Int) : Bool :=
    let (n, d) := scaleRatio 10 num den (-k)
    d ≤ n
  if reaches (guess + 1) then guess + 1 else if reaches guess then guess else guess - 1

/-- A positive decimal: its digits as a number, times a power of ten. -/
structure Decimal where
  digits : Nat
  power : Int
deriving DecidableEq, Repr

/-- The decimal with this many digits that reads back as the number, if there is one. Only the
two neighbours of the number can; of both, the nearer is taken, and the even one of two as
near. -/
def shortestOf (mantissa : Nat) (exponent : Int) (places : Nat) : Option Decimal :=
  let (num, den) := ratio mantissa exponent
  let power := floorLog10 num den - (places - 1 : Nat)
  let (n, d) := scaleRatio 10 num den (-power)
  let below := n / d
  let nearest := roundDiv n d
  let other := if nearest = below then below + 1 else below
  let readsBack (digits : Nat) : Bool :=
    ofDecimal false digits power = finite false mantissa exponent
  if readsBack nearest then some ⟨nearest, power⟩
  else if readsBack other then some ⟨other, power⟩
  else none

/-- The fewest digits that read back: seventeen always do. -/
def shortest (mantissa : Nat) (exponent : Int) : Decimal :=
  ((List.range 17).findSome? fun k => shortestOf mantissa exponent (k + 1)).getD ⟨0, 0⟩

/-- The decimal digits without the zeros at the end, and the place of the point: the number is
`0.digits` times ten to the place. -/
def Decimal.figures (d : Decimal) : Text × Int :=
  let t := Numeral.ofNat d.digits
  (Text.trimEnd (· = '0') t, d.power + t.length)

/-- An exponent with its sign and at least two digits. -/
def exponentText (e : Int) : Text :=
  (if e < 0 then .scalar '-' else .scalar '+') ::
    Text.padStart 2 '0' (Numeral.ofNat e.natAbs)

/-- Digits with the point after the first, and an exponent. -/
def scientific (ds : Text) (e : Int) : Text :=
  match ds with
  | [] => []
  | [c] => c :: .scalar 'e' :: exponentText e
  | c :: rest => c :: .scalar '.' :: rest ++ .scalar 'e' :: exponentText e

/-- Digits with a point at its place, with a zero on either side that would be bare. -/
def positional (ds : Text) (place : Int) : Text :=
  if place ≤ 0 then ("0." : Text) ++ List.replicate (-place).toNat (.scalar '0') ++ ds
  else if ds.length ≤ place then
    ds ++ List.replicate (place.toNat - ds.length) (.scalar '0') ++ (".0" : Text)
  else ds.take place.toNat ++ .scalar '.' :: ds.drop place.toNat

def signText (negative : Bool) : Text := if negative then "-" else []

/-- The shortest text that reads back. The point is written out from `0.0001` up to sixteen
digits before it. -/
def text : Binary64 → Text
  | nan => "nan"
  | infinite s => signText s ++ ("inf" : Text)
  | finite s 0 _ => signText s ++ ("0.0" : Text)
  | finite s m q =>
    let (ds, place) := (shortest m q).figures
    signText s ++
      if -4 < place ∧ place ≤ 16 then positional ds place else scientific ds (place - 1)

/-- The whole part, toward zero. -/
def truncate? : Binary64 → Option Int
  | finite s m q =>
    let (n, d) := ratio m q
    some (if s then -(n / d : Nat) else (n / d : Nat))
  | _ => none

/-- Digits that may have underscores between them, all of them ASCII or of another script. -/
def splitDigits (t : Text) : Text × Text :=
  t.span fun c => c.isDecimalDigit || c = '_'

/-- Reads a number with an optional sign, fraction and exponent, or `inf`, `infinity` or `nan`
in any case, with blanks around it. -/
def ofText? (t : Text) : Option Binary64 :=
  let (negative, body) := match t.trim with
    | .scalar '-' :: rest => (true, rest)
    | .scalar '+' :: rest => (false, rest)
    | rest => (false, rest)
  let word := Text.lower body
  if word = ("inf" : Text) ∨ word = ("infinity" : Text) then some (infinite negative)
  else if word = ("nan" : Text) then some nan
  else do
    let optionalDigits (part : Text) : Option (List Nat) :=
      if part = [] then some [] else Numeral.digits? part
    let (whole, rest) := splitDigits body
    let (fraction, rest) := match rest with
      | .scalar '.' :: rest => splitDigits rest
      | rest => ([], rest)
    let wholeDigits ← optionalDigits whole
    let fractionDigits ← optionalDigits fraction
    if wholeDigits = [] ∧ fractionDigits = [] then none
    let power ← match rest with
      | [] => some 0
      | .scalar e :: rest =>
        if e = 'e' ∨ e = 'E' then
          match rest with
          | .scalar '-' :: ds => (Numeral.digits? ds).map fun d => -(Numeral.valueOf d : Int)
          | .scalar '+' :: ds => (Numeral.digits? ds).map fun d => (Numeral.valueOf d : Int)
          | ds => (Numeral.digits? ds).map fun d => (Numeral.valueOf d : Int)
        else none
      | _ => none
    return ofDecimal negative (Numeral.valueOf (wholeDigits ++ fractionDigits))
      (power - fractionDigits.length)

end Binary64

end LayeredConfig
