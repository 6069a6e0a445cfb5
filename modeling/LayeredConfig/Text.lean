/-! Text is a list of code points. Lone surrogates are allowed, because an escape in a
configuration file may name any code unit. -/

namespace LayeredConfig

/-- A code point is a character or a surrogate that stands alone, given by its place among
the surrogates. -/
inductive CodePoint where
  | scalar (c : Char)
  | surrogate (place : Fin 0x800)
deriving DecidableEq, Repr

abbrev Text := List CodePoint

instance : Coe Char CodePoint := ⟨.scalar⟩
instance : Coe String Text := ⟨fun s => s.toList.map .scalar⟩

namespace CodePoint

def value : CodePoint → Nat
  | scalar c => c.toNat
  | surrogate n => 0xD800 + n.val

def ofNat? (n : Nat) : Option CodePoint :=
  if h : n.isValidChar then some (.scalar (Char.ofNatAux n h))
  else if h : 0xD800 ≤ n ∧ n < 0xE000 then some (.surrogate ⟨n - 0xD800, by omega⟩)
  else none

/-- The character with a given number below 128, for the writers of escapes and digits. -/
def ascii (n : Nat) : CodePoint := .scalar (Char.ofNat n)

def isSurrogate : CodePoint → Bool
  | scalar _ => false
  | surrogate _ => true

/-- Lower case for the letters `A` to `Z`. No other character has a lower case form among the
ASCII letters but the Kelvin sign, so this decides every ASCII word without a `k`. -/
def lower : CodePoint → CodePoint
  | scalar c => scalar c.toLower
  | c => c

def upper : CodePoint → CodePoint
  | scalar c => scalar c.toUpper
  | c => c

def hexValue? : CodePoint → Option Nat
  | scalar c =>
    if '0' ≤ c ∧ c ≤ '9' then some (c.toNat - 48)
    else if 'a' ≤ c ∧ c ≤ 'f' then some (c.toNat - 87)
    else if 'A' ≤ c ∧ c ≤ 'F' then some (c.toNat - 55)
    else none
  | surrogate _ => none

/-- The digit `0` to `9`, then `a` to `f`. -/
def digit (n : Nat) : CodePoint := ascii (if n < 10 then 48 + n else 87 + n)

@[simp] theorem value_scalar (c : Char) : (scalar c).value = c.toNat := rfl

theorem value_injective {c d : CodePoint} (h : c.value = d.value) : c = d := by
  cases c with
  | scalar c =>
    cases d with
    | scalar d => rw [Char.toNat_inj.mp h]
    | surrogate n =>
      have hv := c.valid
      simp only [UInt32.isValidChar, Nat.isValidChar] at hv
      change c.val.toNat = 0xD800 + n.val at h
      omega
  | surrogate m =>
    cases d with
    | scalar d =>
      have hv := d.valid
      simp only [UInt32.isValidChar, Nat.isValidChar] at hv
      change 0xD800 + m.val = d.val.toNat at h
      omega
    | surrogate n =>
      simp only [value] at h
      rw [Fin.ext (show m.val = n.val by omega)]

end CodePoint

namespace Text

/-- The text as a string, if it has no lone surrogate. -/
def toString? (t : Text) : Option String :=
  (t.mapM fun
    | CodePoint.scalar c => some c
    | CodePoint.surrogate _ => none).map String.ofList

def isScalar (t : Text) : Bool := t.all fun c => !c.isSurrogate

theorem isScalar_ofString (s : String) : Text.isScalar s = true := by
  simp [isScalar, CodePoint.isSurrogate]

def lower (t : Text) : Text := t.map CodePoint.lower

def upper (t : Text) : Text := t.map CodePoint.upper

def trimStart (p : CodePoint → Bool) (t : Text) : Text := t.dropWhile p

def trimEnd (p : CodePoint → Bool) (t : Text) : Text := (t.reverse.dropWhile p).reverse

/-- The parts between the occurrences of a separator: one more than there are occurrences. -/
def fields (separator : CodePoint) : Text → List Text
  | [] => [[]]
  | c :: rest =>
    if c = separator then [] :: fields separator rest
    else match fields separator rest with
      | [] => [[c]]
      | f :: fs => (c :: f) :: fs

/-- The parts with a separator between each two. -/
def join (separator : Text) (parts : List Text) : Text := (parts.intersperse separator).flatten

/-- The text less a part it begins with. -/
def dropPrefix? (part t : Text) : Option Text :=
  if part.isPrefixOf t then some (t.drop part.length) else none

/-- A text made at least so long by repeating a character in front. -/
def padStart (width : Nat) (fill : CodePoint) (t : Text) : Text :=
  List.replicate (width - t.length) fill ++ t

end Text

/-- Whether a dotted name is a space or lies below it, seen in whole segments. -/
def isWithin (space name : Text) : Bool := name = space || (space ++ ("." : Text)).isPrefixOf name

end LayeredConfig
