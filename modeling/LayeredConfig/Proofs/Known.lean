import LayeredConfig.Fault
import LayeredConfig.Proofs.Traversal

/-! Computations that fail with errors of this library only, which those who catch its errors
catch. -/

namespace LayeredConfig

def Fault.IsKnown (fault : Fault) : Prop := fault.category?.isSome = true

/-- A result, or a fault that belongs to a kind of this library. -/
def EndsKnown {α : Type} (x : Except Fault α) : Prop := ∀ fault, x = .error fault → fault.IsKnown

namespace EndsKnown

variable {α β : Type} {x : Except Fault α}

theorem ok (a : α) : EndsKnown (.ok a) := nofun

theorem error {fault : Fault} (h : fault.IsKnown) : EndsKnown (.error fault : Except Fault α) := by
  rintro f ⟨⟩
  exact h

theorem of_exists (h : ∃ a, x = .ok a) : EndsKnown x := by
  obtain ⟨a, rfl⟩ := h
  exact ok a

theorem bind {f : α → Except Fault β} (hx : EndsKnown x) (hf : ∀ a, x = .ok a → EndsKnown (f a)) :
    EndsKnown (x >>= f) := by
  intro fault h
  rcases Except.bind_eq_error_iff.mp h with h | ⟨a, ha, h⟩
  · exact hx fault h
  · exact hf a ha fault h

theorem ite {c : Prop} [Decidable c] {y : Except Fault α} (hx : EndsKnown x)
    (hy : EndsKnown y) : EndsKnown (if c then x else y) := by
  by_cases hc : c
  · rwa [if_pos hc]
  · rwa [if_neg hc]

theorem map_iff {f : α → β} : EndsKnown (x.map f) ↔ EndsKnown x := by
  cases x <;> simp [EndsKnown, Except.map]

theorem forM {f : β → Except Fault Unit} {xs : List β} (h : ∀ x ∈ xs, EndsKnown (f x)) :
    EndsKnown (xs.forM f) := by
  induction xs with
  | nil => exact ok ()
  | cons x xs ih =>
    obtain ⟨hx, hxs⟩ := List.forall_mem_cons.mp h
    exact hx.bind fun _ _ => ih hxs

end EndsKnown

end LayeredConfig
