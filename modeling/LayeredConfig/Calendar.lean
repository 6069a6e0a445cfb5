import LayeredConfig.Numeral

/-! Dates and times of day, and the two ways they are written: plainly, and as a literal that
names the kind of value. -/

namespace LayeredConfig

structure Date where
  year : Nat
  month : Nat
  day : Nat
deriving DecidableEq, Repr

structure TimeOfDay where
  hour : Nat
  minute : Nat
  second : Nat
  microsecond : Nat
deriving DecidableEq, Repr

/-- A point in the calendar. The offset of a date and time is in minutes east of universal
time. -/
inductive Moment where
  | date (d : Date)
  | time (t : TimeOfDay)
  | dateTime (d : Date) (t : TimeOfDay) (offset : Option Int)
deriving DecidableEq, Repr

namespace Date

def isLeap (year : Nat) : Bool := year % 4 = 0 ∧ (year % 100 ≠ 0 ∨ year % 400 = 0)

def daysIn (year month : Nat) : Nat :=
  if month = 2 then (if isLeap year then 29 else 28)
  else if month = 4 ∨ month = 6 ∨ month = 9 ∨ month = 11 then 30 else 31

def isValid (d : Date) : Bool :=
  1 ≤ d.year ∧ 1 ≤ d.month ∧ d.month ≤ 12 ∧ 1 ≤ d.day ∧ d.day ≤ daysIn d.year d.month

end Date

def TimeOfDay.isValid (t : TimeOfDay) : Bool := t.hour < 24 ∧ t.minute < 60 ∧ t.second < 60

namespace Moment

def padded (width n : Nat) : Text := Text.padStart width (.scalar '0') (Numeral.ofNat n)

def dateText (d : Date) : Text :=
  Text.join "-" [padded 4 d.year, padded 2 d.month, padded 2 d.day]

/-- Hours, minutes and seconds, and six digits of a fraction that is not zero. -/
def timeText (t : TimeOfDay) : Text :=
  Text.join ":" [padded 2 t.hour, padded 2 t.minute, padded 2 t.second] ++
    if t.microsecond = 0 then [] else .scalar '.' :: padded 6 t.microsecond

def offsetText (offset : Int) : Text :=
  (if offset < 0 then .scalar '-' else .scalar '+') ::
    Text.join ":" [padded 2 (offset.natAbs / 60), padded 2 (offset.natAbs % 60)]

def text : Moment → Text
  | date d => dateText d
  | time t => timeText t
  | dateTime d t offset =>
    dateText d ++ .scalar ' ' :: timeText t ++ (offset.map offsetText).getD []

def typeName : Moment → Text
  | date _ => "date"
  | time _ => "time"
  | dateTime .. => "datetime"

/-- The parts of a time, without a second and a fraction of zero at the end. -/
def timeParts (t : TimeOfDay) : List Nat :=
  if t.microsecond ≠ 0 then [t.hour, t.minute, t.second, t.microsecond]
  else if t.second ≠ 0 then [t.hour, t.minute, t.second]
  else [t.hour, t.minute]

def dateParts (d : Date) : List Nat := [d.year, d.month, d.day]

def literal (m : Moment) : Text :=
  let call (parts : List Nat) (more : Text) : Text :=
    ("datetime." : Text) ++ m.typeName ++ .scalar '(' :: Text.join ", " (parts.map Numeral.ofNat)
      ++ more ++ [.scalar ')']
  match m with
  | date d => call (dateParts d) []
  | time t => call (timeParts t) []
  | dateTime d t none => call (dateParts d ++ timeParts t) []
  | dateTime d t (some offset) =>
    call (dateParts d ++ timeParts t) ((", tzinfo=" : Text) ++ offsetText offset)

end Moment

end LayeredConfig
