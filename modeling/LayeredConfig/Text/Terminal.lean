import LayeredConfig.Text.Utf8

/-! Text for readers that are no terminal: without the sequences that set colours and move the
cursor, and in UTF-8. A lone surrogate in error output is shown by its escape; in other output it
stops the printing. -/

namespace LayeredConfig

namespace Text

def isParameter (c : CodePoint) : Bool :=
  (48 ≤ c.value && c.value ≤ 57) || c = .scalar ';' || c = .scalar '?'

def isFinal (c : CodePoint) : Bool :=
  (65 ≤ c.value && c.value ≤ 90) || (97 ≤ c.value && c.value ≤ 122)

/-- What follows the sequence that a text begins with: an escape, a bracket, parameters and a
letter. -/
def afterSequence? : Text → Option Text
  | .scalar '\x1b' :: .scalar '[' :: rest =>
    match rest.dropWhile isParameter with
    | c :: after => if isFinal c then some after else none
    | [] => none
  | _ => none

theorem length_lt_of_afterSequence? {t after : Text} (h : afterSequence? t = some after) :
    after.length < t.length := by
  unfold afterSequence? at h
  split at h
  · rename_i rest
    split at h
    · rename_i c tail hd
      split at h
      · cases h
        have hs := (List.dropWhile_sublist (l := rest) isParameter).length_le
        rw [hd] at hs
        simp only [List.length_cons] at hs ⊢
        omega
      · exact nomatch h
    · exact nomatch h
  · exact nomatch h

/-- The text without its sequences, read from the left. -/
def dropSequences (t : Text) : Text :=
  match t with
  | [] => []
  | c :: rest =>
    match _h : afterSequence? (c :: rest) with
    | some after => dropSequences after
    | none => c :: dropSequences rest
termination_by t.length
decreasing_by
  · exact length_lt_of_afterSequence? _h
  · simp

/-- A text as error output shows it. -/
def onErrors (t : Text) : Text :=
  t.dropSequences.flatMap fun c =>
    if c.isSurrogate then escapeBetween '\'' false c else [c]

end Text

/-- Output in UTF-8. A surrogate that stands for a byte may be passed on as that byte; no other
surrogate can be printed. -/
structure Printer where
  passesBytes : Bool
deriving DecidableEq, Repr

namespace Printer

def takes (p : Printer) (c : CodePoint) : Bool :=
  !c.isSurrogate || (p.passesBytes && c.strayByte?.isSome)

/-- The first surrogates of a text that stop the printing, where the text begins at a place. -/
def obstacle? (p : Printer) (place : Nat) : Text → Option Unwritable
  | [] => none
  | c :: rest =>
    if p.takes c then p.obstacle? (place + 1) rest
    else some ⟨c, place, place + (rest.takeWhile CodePoint.isSurrogate).length⟩

/-- Prints texts one after the other: what is printed, and what stopped the printing. Of a text
that cannot be printed as a whole nothing is. -/
def print (p : Printer) : List Text → Text × Option Unwritable
  | [] => ([], none)
  | t :: rest =>
    match p.obstacle? 0 t.dropSequences with
    | some obstacle => ([], some obstacle)
    | none => (t.dropSequences ++ (p.print rest).1, (p.print rest).2)

end Printer

end LayeredConfig
