import Mathlib.Tactic.SplitIfs
import LayeredConfig.Proofs.Properties.Paired

/-! Escaping one character and resolving its escape. Both key and value are spelled character by
character, and a spelled text is read back as it was. -/

namespace LayeredConfig.Properties

/-- The line ends that have no escape: vertical tab, three ASCII separators, next line, line
separator and paragraph separator. -/
def breakers : List Nat := [0x0B, 0x1C, 0x1D, 0x1E, 0x85, 0x2028, 0x2029]

def isBreaker (c : CodePoint) : Bool := breakers.contains c.value

def Unbroken (t : Text) : Prop := ∀ c ∈ t, isBreaker c = false

instance (t : Text) : Decidable (Unbroken t) := inferInstanceAs (Decidable (∀ c ∈ t, _))

theorem isLineEnd_iff {c : CodePoint} : c.isLineEnd = true ↔
    isBreaker c = true ∨ c = .scalar '\n' ∨ c = .scalar '\r' ∨ c = .scalar '\x0c' := by
  have hv : ∀ d : CodePoint, c = d ↔ c.value = d.value := fun d =>
    ⟨congrArg _, CodePoint.value_injective⟩
  rw [hv, hv, hv]
  simp only [CodePoint.isLineEnd, isBreaker, breakers, CodePoint.value_scalar, Bool.or_eq_true,
    Bool.and_eq_true, decide_eq_true_eq, List.contains_eq_mem, List.mem_cons, List.not_mem_nil,
    or_false]
  change _ ↔ _ ∨ c.value = 10 ∨ c.value = 13 ∨ c.value = 12
  omega

/-! ### Resolving -/

theorem unescape_cons {c : CodePoint} (t : Text) (hc : c ≠ backslash) :
    unescape (c :: t) = (unescape t).map (c :: ·) := by
  rw [unescape]
  · exact fun _ _ _ _ _ h _ => hc h
  · exact fun _ h _ => hc h
  · exact fun _ _ h _ => hc h

theorem unescape_eq_self {t : Text} (h : ∀ c ∈ t, c ≠ backslash) : unescape t = .ok t := by
  induction t with
  | nil => rfl
  | cons c t ih =>
    rw [unescape_cons t (h c List.mem_cons_self), ih fun d hd => h d (List.mem_cons_of_mem _ hd)]
    rfl

theorem unescape_escape {c : CodePoint} (t : Text) (hu : c ≠ .scalar 'u') :
    unescape (backslash :: c :: t) = (unescape t).map (unescaped c :: ·) := by
  rw [backslash, unescape]
  · exact fun _ _ _ _ _ h _ => hu h
  · exact hu

theorem unescaped_eq_or (c : CodePoint) : unescaped c = c ∨ isBreaker (unescaped c) = false := by
  rw [unescaped]
  split_ifs
  · exact .inr (by decide)
  · exact .inr (by decide)
  · exact .inr (by decide)
  · exact .inr (by decide)
  · exact .inl rfl

/-- The escapes of paired text can be resolved, and none of them stands for a breaker. -/
theorem Paired.unescape {t : Text} (ht : Paired t) :
    ∃ u, unescape t = .ok u ∧ ∀ c ∈ u, c ∈ t ∨ isBreaker c = false := by
  induction ht with
  | nil => exact ⟨[], rfl, by simp⟩
  | @plain c t hc _ ih =>
    obtain ⟨u, hu, hh⟩ := ih
    refine ⟨c :: u, by rw [unescape_cons t hc, hu]; rfl, ?_⟩
    intro d hd
    rcases List.mem_cons.mp hd with rfl | hd
    · exact .inl List.mem_cons_self
    · exact (hh d hd).imp_left (List.mem_cons_of_mem _)
  | @escape c t hu' _ _ ih =>
    obtain ⟨u, hu, hh⟩ := ih
    refine ⟨unescaped c :: u, by rw [unescape_escape t hu', hu]; rfl, ?_⟩
    intro d hd
    rcases List.mem_cons.mp hd with rfl | hd
    · exact (unescaped_eq_or c).imp_left fun h => by simp [h]
    · exact (hh d hd).imp_left fun h => by simp [h]

/-! ### Spelling -/

/-- What the reader takes for one character: the character, or an escape of it. Of the line ends
only breakers stand for themselves. -/
inductive Spells (c : CodePoint) : Text → Prop where
  | plain (hc : c ≠ backslash) (hl : c.isLineEnd = true → isBreaker c = true) : Spells c [c]
  | escape {d : CodePoint} (hu : d ≠ .scalar 'u') (hl : d.isLineEnd = false)
      (hd : unescaped d = c) : Spells c [backslash, d]

theorem Spells.paired {c : CodePoint} {s : Text} (h : Spells c s) : Paired s := by
  cases h with
  | plain hc _ => exact .plain hc .nil
  | escape hu hl _ => exact .escape hu hl .nil

theorem Spells.unescape_append {c : CodePoint} {s : Text} (h : Spells c s) (t : Text) :
    unescape (s ++ t) = (unescape t).map (c :: ·) := by
  cases h with
  | plain hc _ => exact unescape_cons t hc
  | escape hu _ hd => exact hd ▸ unescape_escape t hu

theorem Spells.isLineEnd {c : CodePoint} {s : Text} (h : Spells c s) (hc : isBreaker c = false) :
    ∀ d ∈ s, d.isLineEnd = false := by
  intro d hd
  cases h with
  | plain _ hl =>
    rw [List.mem_singleton.mp hd]
    exact Bool.eq_false_iff.mpr fun he => by simp [hl he] at hc
  | escape _ hl _ =>
    rcases List.mem_cons.mp hd with rfl | hd
    · exact isLineEnd_backslash
    · exact List.mem_singleton.mp hd ▸ hl

theorem unescape_flatMap {f : CodePoint → Text} (hf : ∀ c, Spells c (f c)) (t : Text) :
    unescape (t.flatMap f) = .ok t := by
  induction t with
  | nil => rfl
  | cons c t ih => rw [List.flatMap_cons, (hf c).unescape_append, ih]; rfl

theorem isLineEnd_of_mem_flatMap {f : CodePoint → Text} (hf : ∀ c, Spells c (f c)) {t : Text}
    (ht : Unbroken t) : ∀ d ∈ t.flatMap f, d.isLineEnd = false := by
  intro d hd
  obtain ⟨c, hc, hd⟩ := List.mem_flatMap.mp hd
  exact (hf c).isLineEnd (ht c hc) d hd

theorem exists_of_escapeAlways {c : CodePoint} {s : Text} (h : escapeAlways? c = some s) :
    ∃ d, s = [backslash, d] ∧ d ≠ .scalar 'u' ∧ d.isLineEnd = false ∧ unescaped d = c := by
  rw [escapeAlways?] at h
  split_ifs at h with h1 h2 h3 h4 h5 <;> cases h
  · exact ⟨backslash, rfl, by decide, by decide, h1.symm⟩
  · exact ⟨.scalar 'n', rfl, by decide, by decide, h2.symm⟩
  · exact ⟨.scalar 'r', rfl, by decide, by decide, h3.symm⟩
  · exact ⟨.scalar 't', rfl, by decide, by decide, h4.symm⟩
  · exact ⟨.scalar 'f', rfl, by decide, by decide, h5.symm⟩

theorem spells_of_escapeAlways {c : CodePoint} {s : Text} (h : escapeAlways? c = some s) :
    Spells c s := by
  obtain ⟨d, rfl, hu, hl, hd⟩ := exists_of_escapeAlways h
  exact .escape hu hl hd

/-- What is not escaped everywhere is neither a backslash nor a tab, and a line end only if it
is a breaker. -/
theorem of_escapeAlways_eq_none {c : CodePoint} (h : escapeAlways? c = none) :
    c ≠ backslash ∧ c ≠ .scalar '\t' ∧ c ≠ .scalar '\x0c' ∧
      (c.isLineEnd = true → isBreaker c = true) := by
  simp only [escapeAlways?] at h
  refine ⟨?_, ?_, ?_, ?_⟩
  · rintro rfl
    simp at h
  · rintro rfl
    simp [backslash] at h
  · rintro rfl
    simp [backslash] at h
  · intro hl
    rcases isLineEnd_iff.mp hl with hh | rfl | rfl | rfl
    · exact hh
    · simp [backslash] at h
    · simp [backslash] at h
    · simp [backslash] at h

theorem spells_escapeInValue (c : CodePoint) : Spells c (escapeInValue c) := by
  rw [escapeInValue]
  cases h : escapeAlways? c with
  | some s => exact spells_of_escapeAlways h
  | none =>
    have hc := of_escapeAlways_eq_none h
    exact .plain hc.1 hc.2.2.2

end LayeredConfig.Properties
