import LayeredConfig.Proofs.Properties.Escape
import LayeredConfig.Proofs.Traversal

/-! One entry on a line of its own. The line of a key and a value is no comment, is not
continued, and is read back as that key and that value, whatever characters they have. -/

namespace LayeredConfig.Properties

/-- In a key only characters that neither end nor hide it stand for themselves. -/
theorem escapeInKey_eq (c : CodePoint) : (∃ d, escapeInKey c = [backslash, d]) ∨
    escapeInKey c = [c] ∧ c ≠ backslash ∧ isSeparator c = false ∧ isCommentMark c = false ∧
      isMargin c = false := by
  rw [escapeInKey]
  cases h : escapeAlways? c with
  | some s =>
    obtain ⟨d, rfl, -⟩ := exists_of_escapeAlways h
    exact .inl ⟨d, rfl⟩
  | none =>
    have hn := of_escapeAlways_eq_none h
    simp only [Option.getD_none]
    split_ifs with hm
    · exact .inl ⟨c, rfl⟩
    · simp only [Bool.or_eq_true, decide_eq_true_eq, not_or, Bool.not_eq_true] at hm
      refine .inr ⟨rfl, hn.1, hm.1.1, hm.1.2, ?_⟩
      simp [isMargin, hm.2, hn.2.1, hn.2.2.1]

theorem spells_escapeInKey (c : CodePoint) : Spells c (escapeInKey c) := by
  rw [escapeInKey]
  cases h : escapeAlways? c with
  | some s => exact spells_of_escapeAlways h
  | none =>
    have hn := of_escapeAlways_eq_none h
    simp only [Option.getD_none]
    split_ifs with hm
    · have hc : c = .scalar '=' ∨ c = .scalar ':' ∨ c = .scalar '#' ∨ c = .scalar '!' ∨
          c = .scalar ' ' := by
        simpa [isSeparator, isCommentMark, or_assoc] using hm
      rcases hc with rfl | rfl | rfl | rfl | rfl
      all_goals exact .escape (by decide) (by decide) (by decide)
    · exact .plain hn.1 hn.2.2.2

theorem spanKey_escapeInKey_append (c : CodePoint) (t : Text) :
    spanKey (escapeInKey c ++ t) = (escapeInKey c ++ (spanKey t).1, (spanKey t).2) := by
  rcases escapeInKey_eq c with ⟨d, hd⟩ | ⟨hp, hb, hs, -, hm⟩
  · rw [hd]
    exact spanKey_escape d t
  · rw [hp, List.singleton_append, spanKey_cons t hb, hs, hm]
    rfl

theorem spanKey_escapeKey_append (key t : Text) :
    spanKey (escapeKey key ++ .scalar '=' :: t) = (escapeKey key, .scalar '=' :: t) := by
  induction key with
  | nil => rw [escapeKey, List.flatMap_nil, List.nil_append, spanKey_cons t (by decide)]; rfl
  | cons c key ih =>
    rw [escapeKey] at ih
    rw [escapeKey, List.flatMap_cons, List.append_assoc, spanKey_escapeInKey_append, ih]

theorem head?_line (key value : Text) :
    ∃ c, (line key value).head? = some c ∧ isMargin c = false ∧ isCommentMark c = false := by
  cases key with
  | nil => exact ⟨.scalar '=', rfl, by decide, by decide⟩
  | cons c key =>
    rw [line, escapeKey, List.flatMap_cons]
    rcases escapeInKey_eq c with ⟨d, hd⟩ | ⟨hp, -, -, hc, hm⟩
    · exact ⟨backslash, by rw [hd]; rfl, by decide, by decide⟩
    · exact ⟨c, by rw [hp]; rfl, hm, hc⟩

/-- A value is spelled too. Only a space in front is spelled in another way than elsewhere. -/
theorem escapeValue_eq (value : Text) :
    value = [] ∧ escapeValue value = [] ∨ ∃ c rest s, value = c :: rest ∧ Spells c s ∧
      (∀ d ∈ s.head?, isMargin d = false) ∧
      escapeValue value = s ++ rest.flatMap escapeInValue := by
  cases value with
  | nil => exact .inl ⟨rfl, rfl⟩
  | cons c rest =>
    refine .inr ⟨c, rest, _, rfl, ?_, ?_, rfl⟩
    · split_ifs with hc
      · exact .escape (by rw [hc]; decide) (by rw [hc]; decide) (by rw [hc]; decide)
      · exact spells_escapeInValue c
    · intro d hd
      split_ifs at hd with hc
      · cases hd
        decide
      · rw [escapeInValue] at hd
        cases h : escapeAlways? c with
        | some s =>
          obtain ⟨e, rfl, -⟩ := exists_of_escapeAlways h
          rw [h] at hd
          cases hd
          decide
        | none =>
          rw [h] at hd
          cases hd
          have hn := of_escapeAlways_eq_none h
          simp [isMargin, hc, hn.2.1, hn.2.2.1]

theorem trimMargin_escapeValue (value : Text) :
    trimMargin (escapeValue value) = escapeValue value := by
  apply trimMargin_eq_self
  rcases escapeValue_eq value with ⟨-, hv⟩ | ⟨c, rest, s, -, hs, hm, hv⟩
  · simp [hv]
  · rw [hv]
    cases hs with
    | plain => exact hm
    | escape => exact hm

theorem paired_escapeValue (value : Text) : Paired (escapeValue value) := by
  rcases escapeValue_eq value with ⟨-, hv⟩ | ⟨c, rest, s, -, hs, -, hv⟩
  · exact hv ▸ .nil
  · rw [hv]
    exact hs.paired.append (.flatMap fun d _ => (spells_escapeInValue d).paired)

theorem unescape_escapeValue (value : Text) : unescape (escapeValue value) = .ok value := by
  rcases escapeValue_eq value with ⟨rfl, -⟩ | ⟨c, rest, s, rfl, hs, -, hv⟩
  · rfl
  · rw [hv, hs.unescape_append, unescape_flatMap spells_escapeInValue]
    rfl

theorem paired_line (key value : Text) : Paired (line key value) :=
  Paired.append (.flatMap fun c _ => (spells_escapeInKey c).paired)
    (.plain (by decide) (paired_escapeValue value))

theorem trimMargin_line (key value : Text) : trimMargin (line key value) = line key value := by
  obtain ⟨c, hc, hm, -⟩ := head?_line key value
  exact trimMargin_of_head? hc hm

theorem isIgnored_line (key value : Text) : isIgnored (line key value) = false := by
  obtain ⟨c, hc, -, hm⟩ := head?_line key value
  rw [isIgnored, hc]
  exact hm

theorem dropSeparator_equals (value : Text) :
    dropSeparator (.scalar '=' :: escapeValue value) = escapeValue value := by
  rw [dropSeparator, trimMargin_eq_self (by rintro d ⟨⟩; decide)]
  exact trimMargin_escapeValue value

theorem entry_of_line (key value : Text) : entry (line key value) = .ok (key, value) := by
  have hk : unescape (escapeKey key) = .ok key := unescape_flatMap spells_escapeInKey key
  rw [entry, line, spanKey_escapeKey_append, dropSeparator_equals, hk, unescape_escapeValue]
  rfl

/-- What a line must be to stand for an entry: read by itself it gives just that entry, no line
before or after it joins it, and it is no comment. -/
structure StandsFor (l key value : Text) : Prop where
  entry : entry l = .ok (key, value)
  even : trailingBackslashes l % 2 = 0
  head : ∃ c rest, l = c :: rest ∧ c ∉ (" \t\x0c#!" : Text)

theorem line_standsFor (key value : Text) : StandsFor (line key value) key value where
  entry := entry_of_line key value
  even := by
    have hc := (paired_line key value).not_continues
    rw [continues, decide_eq_false_iff_not] at hc
    omega
  head := by
    obtain ⟨c, hc, hm, hi⟩ := head?_line key value
    obtain ⟨rest, hl⟩ := List.head?_eq_some_iff.mp hc
    refine ⟨c, rest, hl, fun hmem => ?_⟩
    have hd : ∀ d ∈ (" \t\x0c#!" : Text), isMargin d = true ∨ isCommentMark d = true := by decide
    rcases hd c hmem with h | h
    · simp [hm] at h
    · simp [hi] at h

theorem isLineEnd_of_mem_line {key value : Text} (hk : Unbroken key) (hv : Unbroken value) :
    ∀ c ∈ line key value, c.isLineEnd = false := by
  intro c hc
  rcases List.mem_append.mp hc with hc | hc
  · exact isLineEnd_of_mem_flatMap spells_escapeInKey hk c hc
  · rcases List.mem_cons.mp hc with rfl | hc
    · decide
    · rcases escapeValue_eq value with ⟨-, he⟩ | ⟨d, rest, s, rfl, hs, -, he⟩
      · simp [he] at hc
      · rw [he] at hc
        rcases List.mem_append.mp hc with hc | hc
        · exact hs.isLineEnd (hv d List.mem_cons_self) c hc
        · exact isLineEnd_of_mem_flatMap spells_escapeInValue
            (fun e hd => hv e (List.mem_cons_of_mem _ hd)) c hc

end LayeredConfig.Properties
