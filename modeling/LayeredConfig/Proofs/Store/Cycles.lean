import LayeredConfig.Proofs.Store.Expansion
import LayeredConfig.Proofs.Store.Reads

/-! Keys that refer to one another in a ring. Each level of the expansion puts one more text inside
the one before, so the limit on the depth is what ends it. -/

namespace LayeredConfig

open Piece

/-- Texts in a ring, each with one reference, to the key of the next. Places count on past the
size and come round. -/
structure ReferenceRing where
  size : Nat
  size_pos : 0 < size
  key : Nat → Text
  before : Nat → Text
  after : Nat → Text
  isName : ∀ i < size, IsName (key i)
  not_mark : ∀ i < size, ¬ environmentMark <+: key i
  before_literal : ∀ i < size, .scalar '$' ∉ before i
  after_literal : ∀ i < size, .scalar '$' ∉ after i

namespace ReferenceRing

/-- The reference to the key at a place, as it is written. -/
def link (r : ReferenceRing) (i : Nat) : Text := (reference (r.key (i % r.size))).written

def text (r : ReferenceRing) (i : Nat) : Text :=
  r.before (i % r.size) ++ r.link (i + 1) ++ r.after (i % r.size)

/-- What stands before the references at a number of places, in their order. -/
def opening (r : ReferenceRing) (i n : Nat) : Text :=
  (List.range' i n).flatMap fun j => r.before (j % r.size)

/-- What stands after the references, in the opposite order. -/
def closing (r : ReferenceRing) (i n : Nat) : Text :=
  (List.range' i n).reverse.flatMap fun j => r.after (j % r.size)

theorem opening_succ (r : ReferenceRing) (i n : Nat) :
    r.opening i (n + 1) = r.before (i % r.size) ++ r.opening (i + 1) n := by
  rw [opening, List.range'_succ, List.flatMap_cons, opening]

theorem closing_succ (r : ReferenceRing) (i n : Nat) :
    r.closing i (n + 1) = r.closing (i + 1) n ++ r.after (i % r.size) := by
  rw [closing, List.range'_succ, List.reverse_cons, List.flatMap_append, List.flatMap_singleton,
    closing]

theorem text_mod (r : ReferenceRing) (i : Nat) : r.text (i % r.size) = r.text i := by
  rw [text, text, link, link, Nat.mod_mod, Nat.mod_add_mod]

end ReferenceRing

namespace Store

variable {s : Store} {env : Environment} {r : ReferenceRing}

/-- Every key of the ring has the text of its place. -/
def Holds (s : Store) (r : ReferenceRing) : Prop := ∀ i < r.size, s.value (r.key i) = .text (r.text i)

theorem Holds.value_mod (h : s.Holds r) (i : Nat) :
    s.value (r.key (i % r.size)) = .text (r.text i) := by
  rw [h _ (Nat.mod_lt i r.size_pos), r.text_mod]

/-- One level deeper the reference gives way to the next text. -/
theorem Holds.expand_succ (h : s.Holds r) {depth i : Nat} {x : Text}
    (hx : s.expand env depth (r.text (i + 1)) = .ok x) :
    s.expand env (depth + 1) (r.text i) =
      .ok (r.before (i % r.size) ++ x ++ r.after (i % r.size)) := by
  have hi : i % r.size < r.size := Nat.mod_lt i r.size_pos
  have hn : (i + 1) % r.size < r.size := Nat.mod_lt (i + 1) r.size_pos
  have hv := h.value_mod (i + 1)
  have hr : s.resolve env (s.expand env depth) (reference (r.key ((i + 1) % r.size))) = .ok x := by
    rw [resolve_of_isHeld ⟨r.not_mark _ hn, by rw [hv]; exact nofun⟩ (hv ▸ .text _), hv]
    exact hx
  have ha : s.expand env (depth + 1) (r.after (i % r.size)) = .ok (r.after (i % r.size)) :=
    Settles.of_isLiteral (Text.isLiteral_of_not_mem (r.after_literal _ hi)) _ (Nat.zero_le _)
  rw [ReferenceRing.text, List.append_assoc, List.append_assoc]
  exact expand_append_of_not_mem (r.before_literal _ hi) (expand_written (r.isName _ hn) hr ha)

/-- Each level adds the text of one place, and the last reference stays. -/
theorem Holds.expand (h : s.Holds r) (depth i : Nat) :
    s.expand env depth (r.text i) = .ok
      (r.opening i (depth + 1) ++ r.link (i + (depth + 1)) ++ r.closing i (depth + 1)) := by
  induction depth generalizing i with
  | zero =>
    -- nothing is replaced at the limit
    rw [r.opening_succ i, r.closing_succ i]
    simp [ReferenceRing.opening, ReferenceRing.closing, Store.expand, ReferenceRing.text]
  | succ depth ih =>
    rw [h.expand_succ (ih (i + 1)), r.opening_succ i, r.closing_succ i, Nat.add_assoc i 1,
      Nat.add_comm 1]
    simp only [List.append_assoc]

/-- A string read of a ring is cut after sixteen levels. What stands before and after the
references of seventeen places remains, around the one reference that is left. -/
theorem getText_ring (env : Environment) (h : s.Holds r) :
    s.getText env (r.key 0) none = .ok (some
      ((List.range 17).flatMap (fun i => r.before (i % r.size)) ++
        (reference (r.key (17 % r.size))).written ++
        (List.range 17).reverse.flatMap fun i => r.after (i % r.size))) := by
  rw [getText_of_text (h 0 r.size_pos), interpolate, h.expand, Nat.zero_add, ReferenceRing.opening,
    ReferenceRing.closing, ← List.range_eq_range']
  rfl

/-! A ring of two, where a dollar sign in a key and a closing brace after a reference do no harm. -/

def pair : ReferenceRing where
  size := 2
  size_pos := by decide
  key i := if i = 0 then "a" else "$b"
  before i := if i = 0 then "(" else "<"
  after i := if i = 0 then ")" else "\x7d>"
  isName := by decide
  not_mark := by decide
  before_literal := by decide
  after_literal := by decide

def paired : Store :=
  ⟨.empty, [.ofList [("a", .text (pair.text 0)), ("$b", .text (pair.text 1))]], true⟩

theorem paired_cut : paired.Holds pair ∧ paired.getText [] "a" none = .ok (some
    ("(<(<(<(<(<(<(<(<(${$b})\x7d>)\x7d>)\x7d>)\x7d>)\x7d>)\x7d>)\x7d>)\x7d>)" : Text)) := by
  have h : paired.Holds pair := by
    intro i (hi : i < 2)
    interval_cases i <;> rfl
  exact ⟨h, (getText_ring [] h).trans rfl⟩

end Store

end LayeredConfig
