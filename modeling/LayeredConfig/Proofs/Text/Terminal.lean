import LayeredConfig.Proofs.Text.Fields
import LayeredConfig.Text.Terminal

/-! What can be printed. Sequences that are dropped hold no surrogates, so texts are printed to the
end exactly if the printer takes each of their characters. -/

namespace LayeredConfig

namespace Text

variable {t : Text} {c : CodePoint}

theorem isSurrogate_of_value_lt (h : c.value < 0xD800) : c.isSurrogate = false := by
  cases c with
  | scalar c => rfl
  | surrogate place => exact absurd h (Nat.not_lt.mpr (Nat.le_add_right ..))

theorem isSurrogate_of_isParameter (h : isParameter c = true) : c.isSurrogate = false := by
  simp only [isParameter, Bool.or_eq_true, Bool.and_eq_true, decide_eq_true_eq] at h
  rcases h with (⟨-, h⟩ | rfl) | rfl
  · exact isSurrogate_of_value_lt (by omega)
  · rfl
  · rfl

theorem isSurrogate_of_isFinal (h : isFinal c = true) : c.isSurrogate = false := by
  simp only [isFinal, Bool.or_eq_true, Bool.and_eq_true, decide_eq_true_eq] at h
  exact isSurrogate_of_value_lt (by omega)

theorem exists_append_of_afterSequence? {after : Text} (h : afterSequence? t = some after) :
    ∃ sequence, t = sequence ++ after ∧ ∀ c ∈ sequence, c.isSurrogate = false := by
  unfold afterSequence? at h
  split at h
  · rename_i rest
    have hp := List.all_eq_true.mp (List.all_takeWhile (p := isParameter) (l := rest))
    split at h
    · rename_i final tail hd
      have hr : rest = rest.takeWhile isParameter ++ final :: tail := by
        rw [← hd, List.takeWhile_append_dropWhile]
      by_cases hf : isFinal final = true
      · rw [if_pos hf, Option.some.injEq] at h
        subst h
        refine ⟨.scalar '\x1b' :: .scalar '[' :: (rest.takeWhile isParameter ++ [final]), ?_, ?_⟩
        · simpa using hr
        · simp only [List.forall_mem_cons, List.forall_mem_append]
          exact ⟨rfl, rfl, fun c hc => isSurrogate_of_isParameter (hp c hc),
            isSurrogate_of_isFinal hf, nofun⟩
      · rw [if_neg hf] at h
        cases h
    · cases h
  · cases h

/-- Surrogates stay, whatever is dropped. -/
theorem mem_dropSequences_iff (hc : c.isSurrogate = true) : c ∈ t.dropSequences ↔ c ∈ t := by
  induction t using dropSequences.induct with
  | case1 => rw [dropSequences.eq_1]
  | case2 d rest after h ih =>
    obtain ⟨sequence, ht, hs⟩ := exists_append_of_afterSequence? h
    have hn : c ∉ sequence := fun hm => Bool.false_ne_true ((hs c hm).symm.trans hc)
    rw [dropSequences.eq_2, h, ht, List.mem_append, or_iff_right hn, ← ih]
  | case3 d rest h ih => rw [dropSequences.eq_2, h, List.mem_cons, List.mem_cons, ih]

end Text

namespace Printer

variable {p : Printer} {s t : Text} {ts : List Text} {c : CodePoint}

def CanPrint (p : Printer) (t : Text) : Prop := ∀ c ∈ t, p.takes c = true

theorem takes_of_not_isSurrogate (p : Printer) (hc : c.isSurrogate = false) : p.takes c = true := by
  rw [takes, hc]
  rfl

theorem canPrint_ofString (p : Printer) (s : String) : p.CanPrint s := by
  intro c hc
  obtain ⟨d, -, rfl⟩ := List.mem_map.mp hc
  exact p.takes_of_not_isSurrogate rfl

theorem canPrint_append_iff : p.CanPrint (s ++ t) ↔ p.CanPrint s ∧ p.CanPrint t :=
  List.forall_mem_append

theorem CanPrint.of_subset (ht : p.CanPrint t) (h : s ⊆ t) : p.CanPrint s :=
  fun c hc => ht c (h hc)

theorem canPrint_dropSequences_iff : p.CanPrint t.dropSequences ↔ p.CanPrint t := by
  refine forall_congr' fun c => ?_
  cases hc : c.isSurrogate with
  | false => simp [p.takes_of_not_isSurrogate hc]
  | true => rw [Text.mem_dropSequences_iff hc]

theorem obstacle?_eq_none_iff (place : Nat) : p.obstacle? place t = none ↔ p.CanPrint t := by
  induction t generalizing place with
  | nil => simp [obstacle?, CanPrint]
  | cons c t ih =>
    rw [obstacle?, CanPrint, List.forall_mem_cons]
    by_cases hc : p.takes c = true
    · rw [if_pos hc, ih, and_iff_right hc, CanPrint]
    · simp [hc]

theorem print_eq_none_iff : (p.print ts).2 = none ↔ ∀ t ∈ ts, p.CanPrint t := by
  induction ts with
  | nil => simp [print]
  | cons t ts ih =>
    rw [print, List.forall_mem_cons, ← ih, ← canPrint_dropSequences_iff,
      ← obstacle?_eq_none_iff 0]
    cases p.obstacle? 0 t.dropSequences with
    | none => simp
    | some obstacle => simp

end Printer

end LayeredConfig
