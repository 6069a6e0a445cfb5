import LayeredConfig.Proofs.Store.Contents
import LayeredConfig.Proofs.Traversal
import LayeredConfig.Store.Reads

/-! Typed reads by what the store holds: a value that is not null is converted, and a default or
a fault stands in for null. -/

namespace LayeredConfig.Store

variable {α : Type} {s : Store} {key : Text}

/-- A read where the store holds no value. -/
def readDefault (isStrict : Bool) (key : Text) (default? : Option Value)
    (convert : Value → Except Fault α) : Except Fault (Option α) :=
  match default? with
  | some .null => .ok none
  | some v => (convert v).map some
  | none => if isStrict then .error (.missingProperty key) else .ok none

theorem readWith_of_null (h : s.value key = .null) (default? : Option Value)
    (convert : Value → Except Fault α) :
    s.readWith key default? convert = readDefault s.isStrict key default? convert := by
  unfold readWith raw
  rw [h]
  cases default? with
  | none => cases hs : s.isStrict <;> rfl
  | some v => cases v <;> rfl

theorem readWith_of_ne_null (h : s.value key ≠ .null) (default? : Option Value)
    (convert : Value → Except Fault α) :
    s.readWith key default? convert = (convert (s.value key)).map some := by
  unfold readWith raw
  cases hv : s.value key with
  | null => exact absurd hv h
  | _ => rfl

theorem readWith_of_raw {default? : Option Value} {v : Value} (h : s.raw key default? = .ok v)
    (hv : v ≠ .null) (convert : Value → Except Fault α) :
    s.readWith key default? convert = (convert v).map some := by
  rw [readWith, h]
  cases v with
  | null => exact absurd rfl hv
  | _ => rfl

theorem exists_raw_of_readWith {default? : Option Value} {convert : Value → Except Fault α}
    {a : α} (h : s.readWith key default? convert = .ok (some a)) :
    ∃ v, v ≠ .null ∧ s.raw key default? = .ok v ∧ convert v = .ok a := by
  obtain ⟨v, hr, -⟩ := Except.bind_eq_ok_iff.mp h
  have hv : v ≠ .null := by
    rintro rfl
    rw [readWith, hr] at h
    exact nomatch h
  rw [readWith_of_raw hr hv] at h
  obtain ⟨a', ha, he⟩ := Except.map_eq_ok_iff.mp h
  cases he
  exact ⟨v, hv, hr, ha⟩

theorem readWith_congr {s' : Store} {default? : Option Value}
    {convert' convert : Value → Except Fault α}
    (hr : s'.raw key default? = s.raw key default?)
    (hc : ∀ v, v ≠ .null → s.raw key default? = .ok v → convert' v = convert v) :
    s'.readWith key default? convert' = s.readWith key default? convert := by
  rw [readWith, readWith, hr]
  cases hv : s.raw key default? with
  | error fault => rfl
  | ok v =>
    by_cases hn : v = .null
    · rw [hn]
      rfl
    · have hh := hc v hn hv
      cases v with
      | null => exact absurd rfl hn
      | _ => simp only [Except.bind, bind, hh]

def shownText (s : Store) (env : Environment) (v : Value) : Except Fault Text := do
  s.interpolate env (← v.settingText)

theorem shownText_congr {s' : Store} {env' env : Environment} {v : Value}
    (h : ∀ t, v.settingText? = some t → s'.interpolate env' t = s.interpolate env t) :
    s'.shownText env' v = s.shownText env v := by
  rw [shownText, shownText, Value.settingText]
  cases ht : v.settingText? with
  | none => simp only [bind, Except.bind]
  | some t => exact h t ht

theorem getText_eq (s : Store) (env : Environment) (key : Text) (default? : Option Value) :
    s.getText env key default? = s.readWith key default? (s.shownText env) := rfl

theorem getText_of_text {env : Environment} {key t : Text} (h : s.value key = .text t)
    (d? : Option Value) : s.getText env key d? = (s.interpolate env t).map some := by
  rw [getText_eq, readWith_of_ne_null (by simp [h]), h]
  rfl

end LayeredConfig.Store
