import LayeredConfig.Store

/-! References inside values. `${name}` stands for the value of another key and `${env:name}`
for a variable of the environment. Values of keys are expanded in turn, sixteen deep at most; a
reference that cannot be resolved stays as it is written. -/

namespace LayeredConfig

abbrev Environment := List (List UInt8 × Text)

/-- The text of a variable. A name that holds a surrogate without a byte cannot be asked for. -/
def Environment.get? (env : Environment) (name : Text) : Except Fault (Option Text) :=
  match name.systemBytes with
  | .ok bytes => .ok (env.lookup bytes)
  | .error place => .error (.unwritable place)

/-- A part of a text: a character, or a reference by its name. -/
inductive Piece where
  | character (c : CodePoint)
  | reference (name : Text)
deriving DecidableEq, Repr

namespace Piece

def isClosing (c : CodePoint) : Bool := c = .scalar '}'

def written : Piece → Text
  | character c => [c]
  | reference name => .scalar '$' :: .scalar '{' :: name ++ [.scalar '}']

/-- The name of the reference that a text begins with, and the text after it. A name is not
empty and ends at the first closing brace. -/
def leading? : Text → Option (Text × Text)
  | .scalar '$' :: .scalar '{' :: c :: rest =>
    if isClosing c then none
    else match rest.dropWhile fun c => !isClosing c with
      | [] => none
      | _ :: after => some (c :: rest.takeWhile fun c => !isClosing c, after)
  | _ => none

theorem length_lt_of_leading? {t name after : Text} (h : leading? t = some (name, after)) :
    after.length < t.length := by
  unfold leading? at h
  split at h
  · rename_i c rest
    split at h
    · exact nomatch h
    · split at h
      · exact nomatch h
      · rename_i d tail hd
        cases h
        have hs := (List.dropWhile_sublist (l := rest) fun c => !isClosing c).length_le
        rw [hd] at hs
        simp only [List.length_cons] at hs ⊢
        omega
  · exact nomatch h

def ofText (t : Text) : List Piece :=
  match t with
  | [] => []
  | c :: rest =>
    match _h : leading? (c :: rest) with
    | some (name, after) => reference name :: ofText after
    | none => character c :: ofText rest
termination_by t.length
decreasing_by
  · exact length_lt_of_leading? _h
  · simp

end Piece

def environmentMark : Text := "env:"

namespace Store

def expansionDepth : Nat := 16

/-- What a reference stands for, given how the values of keys are expanded. -/
def resolve (s : Store) (env : Environment) (expand : Text → Except Fault Text) :
    Piece → Except Fault Text
  | .character c => .ok [c]
  | .reference name =>
    match Text.dropPrefix? environmentMark name with
    | some named => do return (← env.get? named).getD (Piece.reference name).written
    | none =>
      match s.value name with
      | .null => .ok (Piece.reference name).written
      | v => do expand (← v.settingText)

/-- Replaces references, and those inside of what replaced them as deep as `depth` allows. -/
def expand (s : Store) (env : Environment) : Nat → Text → Except Fault Text
  | 0, t => .ok t
  | depth + 1, t => do
    return (← (Piece.ofText t).mapM (s.resolve env (s.expand env depth))).flatten

def interpolate (s : Store) (env : Environment) (t : Text) : Except Fault Text :=
  s.expand env expansionDepth t

end Store

end LayeredConfig
