import LayeredConfig.Proofs.Store.Contents
import LayeredConfig.Proofs.Store.Reads
import LayeredConfig.Proofs.Store.References

/-! Stores that agree: under each key both hold the same value or none, whichever layers hold it.
The operations keep them in agreement, and every read is the same on both. -/

namespace LayeredConfig.Store

structure Agrees (t s : Store) : Prop where
  isStrict : t.isStrict = s.isStrict
  find? (key : Text) : t.find? key = s.find? key

namespace Agrees

variable {t s : Store}

theorem value (h : t.Agrees s) (key : Text) : t.value key = s.value key := by
  rw [Store.value, Store.value, h.find?]

theorem contains (h : t.Agrees s) (key : Text) : t.contains key = s.contains key := by
  rw [contains_eq_isSome, contains_eq_isSome, h.find?]

/-! ### Operations -/

theorem erase (h : t.Agrees s) (k : Text) : (t.erase k).Agrees (s.erase k) where
  isStrict := h.isStrict
  find? key := by rw [find?_erase, find?_erase, h.find?]

theorem put (h : t.Agrees s) (k : Text) (v : Value) : (t.put k v).Agrees (s.put k v) where
  isStrict := by rw [isStrict_put, isStrict_put, h.isStrict]
  find? key := by rw [find?_put, find?_put, h.find?]

theorem clear (h : t.Agrees s) : t.clear.Agrees s.clear where
  isStrict := h.isStrict
  find? key := by rw [find?_clear, find?_clear]

/-- A layer that is added lies below all others of both stores, however many there are. -/
theorem addLayer (h : t.Agrees s) (l : Layer) : (t.addLayer l).Agrees (s.addLayer l) where
  isStrict := h.isStrict
  find? key := by rw [find?_addLayer, find?_addLayer, h.find?]

theorem putDefault (h : t.Agrees s) (k : Text) (v : Value) :
    (t.putDefault k v).Agrees (s.putDefault k v) := by
  rw [Store.putDefault, Store.putDefault, h.value]
  split_ifs
  · exact h.put k v
  · exact h

theorem putAll (h : t.Agrees s) (es : List (Text × Value)) :
    (t.putAll es).Agrees (s.putAll es) := by
  induction es generalizing t s with
  | nil => exact h
  | cons e es ih => exact ih (h.put e.1 e.2)

/-! ### Reads -/

theorem readWith (h : t.Agrees s) {α : Type} (key : Text) (default? : Option Value)
    (convert : Value → Except Fault α) :
    t.readWith key default? convert = s.readWith key default? convert := by
  have hr : t.raw key default? = s.raw key default? := by
    simp only [raw, h.value, h.isStrict]
  exact readWith_congr hr fun _ _ _ => rfl

theorem expand (h : t.Agrees s) (env : Environment) (depth : Nat) :
    t.expand env depth = s.expand env depth :=
  funext fun _ => expand_congr fun key _ => h.value key

theorem interpolate (h : t.Agrees s) (env : Environment) : t.interpolate env = s.interpolate env :=
  h.expand env expansionDepth

theorem getText (h : t.Agrees s) (env : Environment) (key : Text) (default? : Option Value) :
    t.getText env key default? = s.getText env key default? := by
  rw [Store.getText, Store.getText, h.interpolate, h.readWith]

theorem getInteger (h : t.Agrees s) (key : Text) (default? : Option Value) :
    t.getInteger key default? = s.getInteger key default? := h.readWith key default? _

theorem getTruth (h : t.Agrees s) (key : Text) (default? : Option Value) :
    t.getTruth key default? = s.getTruth key default? := h.readWith key default? _

theorem getTextValue (h : t.Agrees s) (env : Environment) (key : Text) (default? : Option Value) :
    t.getTextValue env key default? = s.getTextValue env key default? := by
  rw [Store.getTextValue, Store.getTextValue, h.getText]

theorem getNumber (h : t.Agrees s) (rule : Rule) (key : Text) (default? : Option Value) :
    t.getNumber rule key default? = s.getNumber rule key default? := by
  rw [Store.getNumber, Store.getNumber, h.getInteger]

theorem getNonEmpty (h : t.Agrees s) (env : Environment) (key : Text) (default? : Option Value) :
    t.getNonEmpty env key default? = s.getNonEmpty env key default? := by
  rw [Store.getNonEmpty, Store.getNonEmpty, h.getTextValue]

end Agrees

end LayeredConfig.Store
