import LayeredConfig.Fault

/-! Faults that show the same, and computations that end the same up to such faults. -/

namespace LayeredConfig

/-- Faults of one class with one message. They may differ in the value that their details show;
outside the classes of the library, where the class is the cause, they are the same fault. -/
structure Fault.Alike (f g : Fault) : Prop where
  category : f.category? = g.category?
  message : f.message = g.message
  eq_of_foreign : f.category? = none → f = g

theorem Fault.Alike.refl (f : Fault) : f.Alike f := ⟨rfl, rfl, fun _ => rfl⟩

theorem Fault.Alike.notInteger (key : Text) (v w : Value) :
    (Fault.notInteger key v).Alike (.notInteger key w) := ⟨rfl, rfl, nofun⟩

theorem Fault.Alike.notTruth (key : Text) (v w : Value) :
    (Fault.notTruth key v).Alike (.notTruth key w) := ⟨rfl, rfl, nofun⟩

/-- Both give the same result, or both fail with faults that show the same. -/
inductive EndsAlike {α : Type} : Except Fault α → Except Fault α → Prop where
  | ok (a : α) : EndsAlike (.ok a) (.ok a)
  | error {f g : Fault} (h : f.Alike g) : EndsAlike (.error f) (.error g)

namespace EndsAlike

variable {α β : Type} {x y : Except Fault α}

theorem refl (x : Except Fault α) : EndsAlike x x := by
  cases x with
  | ok a => exact .ok a
  | error f => exact .error (.refl f)

theorem of_eq (h : x = y) : EndsAlike x y := h ▸ refl x

theorem bind (h : EndsAlike x y) (f : α → Except Fault β) : EndsAlike (x >>= f) (y >>= f) := by
  cases h with
  | ok a => exact refl (f a)
  | error h => exact .error h

theorem map (h : EndsAlike x y) (f : α → β) : EndsAlike (x.map f) (y.map f) := by
  cases h with
  | ok a => exact .ok (f a)
  | error h => exact .error h

end EndsAlike

end LayeredConfig
