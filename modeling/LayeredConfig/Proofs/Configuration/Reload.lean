import LayeredConfig.Configuration
import LayeredConfig.Proofs.Store.Reload

/-! The settings of a reloaded store. -/

namespace LayeredConfig

variable {s' s : Store}

theorem Kind.read_endsAlike (h : s'.IsTextOf s) (kind : Kind) (env : Environment) (key : Text)
    (default? : Option Value) :
    EndsAlike (kind.read s' env key default?) (kind.read s env key default?) := by
  have ht := EndsAlike.of_eq (h.getTextValue env key default?)
  have hi := (h.getInteger key default?).bind fun n => .ok ((n.map Value.int).getD .null)
  have hb := (h.getTruth key default?).bind fun b => .ok ((b.map Value.bool).getD .null)
  cases kind with
  | applicationName | nonEmptyText | base64 | notNullText => exact ht
  | positive | positiveLong | nonNegative | retryTimeout => exact hi
  | truth => exact hb

namespace Store.IsTextOf

theorem get (h : s'.IsTextOf s) (env : Environment) (setting : Setting) :
    EndsAlike (s'.get env setting) (s.get env setting) :=
  (Kind.read_endsAlike h setting.kind env setting.key setting.default?).bind _

theorem get_of_text (h : s'.IsTextOf s) (env : Environment) {setting : Setting}
    (ht : setting.kind = .applicationName ∨ setting.kind = .nonEmptyText ∨
      setting.kind = .base64 ∨ setting.kind = .notNullText) :
    s'.get env setting = s.get env setting := by
  rw [Store.get, Store.get]
  rcases ht with hk | hk | hk | hk <;> rw [hk, Kind.read, Kind.read, h.getTextValue]

theorem connectString (h : s'.IsTextOf s) (env : Environment) :
    s'.connectString env = s.connectString env := by
  rw [Store.connectString, Store.connectString, h.get_of_text env (.inr (.inl rfl)),
    h.get_of_text env (.inl rfl)]

theorem metrics (h : s'.IsTextOf s) (env : Environment) : s'.metrics env = s.metrics env := by
  rw [Store.metrics, Store.metrics, h.get_of_text env (.inr (.inr (.inl rfl)))]

theorem observers (h : s'.IsTextOf s) (env : Environment) :
    s'.observers env = s.observers env := by
  have ho : s'.observer env = s.observer env := by
    funext key
    rw [observer, observer, h.getText]
  rw [Store.observers, Store.observers, h.keys, ho]

end Store.IsTextOf

end LayeredConfig
