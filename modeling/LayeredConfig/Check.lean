import LayeredConfig.Fault

/-! Checks on the values of properties. A check returns the value it was given, seen at its
type, or names the property and the rule that is broken. -/

namespace LayeredConfig

/-- What a rule asks of a whole number. Rules about other values ask nothing. -/
def Rule.admits : Rule → Int → Bool
  | .positive, n => 0 < n
  | .nonNegative, n => 0 ≤ n
  | .retryTimeout, n => -1 ≤ n
  | .port, n => Rule.leastPort ≤ n && n ≤ Rule.greatestPort
  | _, _ => true

namespace Check

/-- A truth value is not a whole number. -/
def integer (property : Text) : Value → Except Fault Int
  | .int n => .ok n
  | v => .error (.broken .integer property v)

def number (rule : Rule) (property : Text) (v : Value) : Except Fault Int := do
  let n ← integer property v
  if rule.admits n then .ok n else .error (.broken rule property v)

def notNull (property : Text) : Value → Except Fault Text
  | .text t => .ok t
  | .null => .error (.broken .notNull property .null)
  | v => .error (.broken .isText property v)

def nonEmpty (property : Text) (v : Value) : Except Fault Text := do
  let t ← notNull property v
  if t.isEmpty then .error (.broken .nonEmpty property v) else .ok t

def truth (property : Text) : Value → Except Fault Bool
  | .bool b => .ok b
  | v => .error (.broken .truth property v)

theorem number_eq_ok_iff {rule : Rule} {property : Text} {v : Value} {n : Int} :
    number rule property v = .ok n ↔ v = .int n ∧ rule.admits n = true := by
  cases v <;> simp only [number, integer, bind, Except.bind, reduceCtorEq, false_and,
    Value.int.injEq]
  split <;> rename_i h
  · rw [Except.ok.injEq]
    exact ⟨fun e => ⟨e, e ▸ h⟩, And.left⟩
  · simp only [reduceCtorEq, false_iff, not_and]
    exact fun e => e ▸ h

theorem notNull_eq_ok_iff {property t : Text} {v : Value} :
    notNull property v = .ok t ↔ v = .text t := by
  cases v <;> simp [notNull]

theorem nonEmpty_eq_ok_iff {property t : Text} {v : Value} :
    nonEmpty property v = .ok t ↔ v = .text t ∧ t ≠ [] := by
  cases v <;> simp only [nonEmpty, notNull, bind, Except.bind, reduceCtorEq, false_and,
    Value.text.injEq, List.isEmpty_iff]
  split <;> rename_i h
  · simp only [reduceCtorEq, false_iff, not_and]
    exact fun e hne => hne (e ▸ h)
  · rw [Except.ok.injEq]
    exact ⟨fun e => ⟨e, e ▸ h⟩, And.left⟩

end Check

end LayeredConfig
