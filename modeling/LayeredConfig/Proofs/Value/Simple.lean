import LayeredConfig.Proofs.Alike
import LayeredConfig.Proofs.Numeral
import LayeredConfig.Store.Reads

/-! Simple values: those that a property file can hold as text. -/

namespace LayeredConfig.Value

/-- Texts, truth values, and whole numbers of at most 4300 digits. -/
inductive IsSimple : Value → Prop where
  | text (t : Text) : IsSimple (.text t)
  | bool (b : Bool) : IsSimple (.bool b)
  | int {n : Int} (h : n.natAbs < 10 ^ Numeral.maxDigits) : IsSimple (.int n)

/-- The text of a simple value: truth values are in lower case, numbers in decimal. -/
def rendered : Value → Text
  | text t => t
  | bool b => if b then "true" else "false"
  | int n => Numeral.ofInt n
  | _ => []

theorem IsSimple.settingText? {v : Value} (h : v.IsSimple) :
    v.settingText? = some v.rendered := by
  cases h with
  | text => rfl
  | bool => rfl
  | int h => exact Numeral.ofInt?_eq_some h

theorem IsSimple.settingText {v : Value} (h : v.IsSimple) : v.settingText = .ok v.rendered := by
  rw [Value.settingText, h.settingText?]

theorem IsSimple.int_of_le {n : Int} {k : Nat} (hk : k ≤ Numeral.maxDigits)
    (h : n.natAbs < 10 ^ k) : (Value.int n).IsSimple :=
  .int (Nat.lt_of_lt_of_le h (Nat.pow_le_pow_right (by decide) hk))

theorem IsSimple.ne_null {v : Value} (h : v.IsSimple) : v ≠ .null := by
  rintro rfl
  cases h

/-! A simple value converts as its text does. -/

theorem toInteger_rendered_bool (key : Text) (b : Bool) :
    toInteger key (.text (bool b).rendered) =
      .error (.notInteger key (.text (bool b).rendered)) := by
  cases b <;> rfl

theorem IsSimple.toInteger {v : Value} (h : v.IsSimple) (key : Text) :
    EndsAlike (Value.toInteger key (.text v.rendered)) (Value.toInteger key v) := by
  cases h with
  | text t => exact .refl _
  | bool b =>
    rw [toInteger_rendered_bool]
    exact .error (.notInteger key _ _)
  | @int n hn =>
    have hh : Value.toInteger key (.text (Numeral.ofInt n)) = .ok n := by
      simp only [Value.toInteger, plain?, Option.bind_some, Numeral.toInt?_ofInt hn]
    exact .of_eq hh

theorem truthOfWord?_ofInt {n : Int} (h : n.natAbs < 10 ^ Numeral.maxDigits) :
    truthOfWord? (Numeral.ofInt n) =
      if n = 1 then some true else if n = 0 then some false else none := by
  have hh := Numeral.toInt?_ofInt h
  by_cases hn : n = 1 ∨ n = 0
  · have h1 : Numeral.ofInt 1 = "1" := Numeral.ofInt_natCast_of_lt (d := 1) (by decide)
    have h0 : Numeral.ofInt 0 = "0" := Numeral.ofInt_natCast_of_lt (d := 0) (by decide)
    rcases hn with rfl | rfl
    · rw [h1]
      rfl
    · rw [h0]
      rfl
  · -- the words that are numbers are those of one and zero
    have hw : ∀ w ∈ trueWords ++ falseWords, Numeral.toInt? w ≠ some n := by
      have hz : ∀ w ∈ trueWords ++ falseWords,
          Numeral.toInt? w = none ∨ Numeral.toInt? w = some 1 ∨ Numeral.toInt? w = some 0 := by
        decide
      rw [not_or] at hn
      intro w hm he
      rcases hz w hm with h | h | h
      · simp [h] at he
      · exact hn.1 (Option.some.inj (he.symm.trans h))
      · exact hn.2 (Option.some.inj (he.symm.trans h))
    have hc : Numeral.ofInt n ∉ trueWords ++ falseWords := fun hm => hw _ hm hh
    rw [List.mem_append, not_or] at hc
    rw [not_or] at hn
    simp [truthOfWord?, hc.1, hc.2, hn.1, hn.2]

theorem toTruth_of_plain? {v : Value} {t : Text} (hb : ∀ b, v ≠ .bool b) (hp : v.plain? = some t)
    (key : Text) :
    v.toTruth key = (truthOfWord? t.trim.lower).elim (.error (.notTruth key v)) .ok := by
  unfold toTruth
  split
  · exact absurd rfl (hb _)
  · simp only [hp]
    cases truthOfWord? t.trim.lower <;> rfl

theorem toTruth_cases (key : Text) (v : Value) :
    (v.plain? = none ∧ v.toTruth key = .error .tooManyDigits) ∨
      v.plain?.isSome = true ∧
        ((∃ b, v.toTruth key = .ok b) ∨ v.toTruth key = .error (.notTruth key v)) := by
  by_cases hb : ∃ b, v = .bool b
  · obtain ⟨b, rfl⟩ := hb
    exact .inr ⟨rfl, .inl ⟨b, rfl⟩⟩
  rw [not_exists] at hb
  cases hp : v.plain? with
  | none =>
    refine .inl ⟨rfl, ?_⟩
    unfold toTruth
    simp only [hp]
  | some t =>
    refine .inr ⟨rfl, ?_⟩
    rw [toTruth_of_plain? hb hp]
    cases truthOfWord? t.trim.lower with
    | some b => exact .inl ⟨b, rfl⟩
    | none => exact .inr rfl

/-- Both the number and its text are truth values if the number is one or zero, and neither is
otherwise. -/
theorem toTruth_int {n : Int} (h : n.natAbs < 10 ^ Numeral.maxDigits) (key : Text) {v : Value}
    (hv : v = .int n ∨ v = .text (Numeral.ofInt n)) :
    v.toTruth key =
      if n = 1 then .ok true else if n = 0 then .ok false else .error (.notTruth key v) := by
  have hp : v.plain? = some (Numeral.ofInt n) := by
    rcases hv with rfl | rfl
    · exact Numeral.ofInt?_eq_some h
    · rfl
  have hb : ∀ b, v ≠ .bool b := by rcases hv with rfl | rfl <;> exact nofun
  rw [toTruth_of_plain? hb hp, Text.trim_eq_self Numeral.isBlank_of_mem_ofInt, Numeral.lower_ofInt,
    truthOfWord?_ofInt h]
  split_ifs <;> rfl

theorem IsSimple.toTruth {v : Value} (h : v.IsSimple) (key : Text) :
    EndsAlike (Value.toTruth key (.text v.rendered)) (Value.toTruth key v) := by
  cases h with
  | text t => exact .refl _
  | bool b => cases b <;> exact .refl _
  | int hn =>
    rw [rendered, toTruth_int hn key (.inl rfl), toTruth_int hn key (.inr rfl)]
    split_ifs
    · exact .ok true
    · exact .ok false
    · exact .error (.notTruth key _ _)

end LayeredConfig.Value
