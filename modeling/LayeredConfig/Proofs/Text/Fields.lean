import LayeredConfig.Text.Blank

/-! Texts put together from parts: where they are split again, and what trimming leaves of them. -/

namespace LayeredConfig.Text

variable {separator : CodePoint} {p : CodePoint → Bool} {s t : Text}

theorem fields_of_not_mem (h : separator ∉ t) : fields separator t = [t] := by
  induction t with
  | nil => rfl
  | cons c t ih =>
    rw [List.mem_cons, not_or] at h
    rw [fields, if_neg (Ne.symm h.1), ih h.2]

theorem fields_append_cons (h : separator ∉ s) :
    fields separator (s ++ separator :: t) = s :: fields separator t := by
  induction s with
  | nil => rw [List.nil_append, fields, if_pos rfl]
  | cons c s ih =>
    rw [List.mem_cons, not_or] at h
    rw [List.cons_append, fields, if_neg (Ne.symm h.1), ih h.2]

theorem exists_fields_eq (separator : CodePoint) (t : Text) : ∃ first rest,
    fields separator t = first :: rest ∧ t = first ++ rest.flatMap (separator :: ·) ∧
      ∀ f ∈ first :: rest, separator ∉ f := by
  induction t with
  | nil => exact ⟨[], [], rfl, rfl, by simp⟩
  | cons c t ih =>
    obtain ⟨first, rest, hf, ht, hm⟩ := ih
    by_cases hc : c = separator
    · exact ⟨[], first :: rest, by rw [fields, if_pos hc, hf], by simp [hc, ← ht],
        List.forall_mem_cons.mpr ⟨List.not_mem_nil, hm⟩⟩
    · obtain ⟨hn, hr⟩ := List.forall_mem_cons.mp hm
      refine ⟨c :: first, rest, by rw [fields, if_neg hc, hf], by simp [← ht],
        List.forall_mem_cons.mpr ⟨?_, hr⟩⟩
      simp [Ne.symm hc, hn]

theorem length_fields (separator : CodePoint) (t : Text) :
    (fields separator t).length = t.count separator + 1 := by
  induction t with
  | nil => rfl
  | cons c t ih =>
    obtain ⟨first, rest, hf, -⟩ := exists_fields_eq separator t
    rw [hf] at ih
    by_cases hc : c = separator
    · rw [fields, if_pos hc, hf, List.length_cons, ih, hc, List.count_cons_self]
    · rw [fields, if_neg hc, hf, List.length_cons, List.count_cons_of_ne hc, ← ih]
      rfl

theorem mem_join {parts : List Text} {c : CodePoint} (hc : c ∈ join s parts) :
    c ∈ s ∨ ∃ t ∈ parts, c ∈ t := by
  rw [join] at hc
  induction parts with
  | nil => exact absurd hc List.not_mem_nil
  | cons t parts ih =>
    cases parts with
    | nil => exact .inr ⟨t, List.mem_cons_self, by simpa using hc⟩
    | cons u parts =>
      rw [List.intersperse_cons_cons, List.flatten_cons, List.flatten_cons, List.mem_append,
        List.mem_append] at hc
      rcases hc with hc | hc | hc
      · exact .inr ⟨t, List.mem_cons_self, hc⟩
      · exact .inl hc
      · exact (ih hc).imp_right fun ⟨v, hv, hc⟩ => ⟨v, List.mem_cons_of_mem t hv, hc⟩

theorem dropPrefix?_eq_some_iff {part rest : Text} :
    dropPrefix? part t = some rest ↔ t = part ++ rest := by
  rw [dropPrefix?]
  constructor
  · intro h
    by_cases hp : part.isPrefixOf t = true
    · rw [if_pos hp] at h
      obtain ⟨u, rfl⟩ := List.isPrefixOf_iff_prefix.mp hp
      rw [← Option.some.inj h, List.drop_left]
    · rw [if_neg hp] at h
      exact nomatch h
  · rintro rfl
    rw [if_pos (List.isPrefixOf_iff_prefix.mpr (List.prefix_append _ _)), List.drop_left]

theorem dropPrefix?_eq_none_iff {part : Text} : dropPrefix? part t = none ↔ ¬ part <+: t := by
  rw [Option.eq_none_iff_forall_ne_some]
  simp only [ne_eq, dropPrefix?_eq_some_iff]
  exact ⟨fun h ⟨rest, hr⟩ => h rest hr.symm, fun h rest hr => h ⟨rest, hr.symm⟩⟩

/-! Trimming goes no further than a character that stays. -/

theorem trimStart_eq_self (h : ∀ c ∈ t.head?, p c = false) : trimStart p t = t := by
  cases t with
  | nil => rfl
  | cons c t => exact List.dropWhile_cons_of_neg (by simp [h c rfl])

theorem trimStart_append (h : ∀ c ∈ t.head?, p c = false) :
    trimStart p (s ++ t) = trimStart p s ++ t := by
  have ht : t.dropWhile p = t := trimStart_eq_self h
  rw [trimStart, trimStart, List.dropWhile_append, ht]
  split
  · rename_i hs
    rw [List.isEmpty_iff.mp hs, List.nil_append]
  · rfl

theorem trimEnd_append (h : ∀ c ∈ s.getLast?, p c = false) :
    trimEnd p (s ++ t) = s ++ trimEnd p t := by
  have hh : trimStart p (t.reverse ++ s.reverse) = trimStart p t.reverse ++ s.reverse :=
    trimStart_append (by rwa [List.head?_reverse])
  rw [trimEnd, List.reverse_append]
  change (trimStart p _).reverse = _
  rw [hh, List.reverse_append, List.reverse_reverse]
  rfl

theorem trimStart_subset (p : CodePoint → Bool) (t : Text) : trimStart p t ⊆ t :=
  (List.dropWhile_sublist p).subset

theorem trimEnd_subset (p : CodePoint → Bool) (t : Text) : trimEnd p t ⊆ t := by
  intro c hc
  exact List.mem_reverse.mp (trimStart_subset p t.reverse (List.mem_reverse.mp hc))

theorem trim_subset (t : Text) : t.trim ⊆ t :=
  fun _ hc => trimStart_subset _ t (trimEnd_subset _ _ hc)

theorem mem_trimStart {c : CodePoint} (hc : c ∈ t) (hp : p c = false) : c ∈ trimStart p t := by
  rw [← List.takeWhile_append_dropWhile (p := p) (l := t), List.mem_append] at hc
  refine hc.resolve_left fun hm => ?_
  exact Bool.false_ne_true (hp.symm.trans (List.all_eq_true.mp List.all_takeWhile _ hm))

theorem mem_trim {c : CodePoint} (hc : c ∈ t) (hb : c.isBlank = false) : c ∈ t.trim :=
  List.mem_reverse.mpr (mem_trimStart (List.mem_reverse.mpr (mem_trimStart hc hb)) hb)

/-! What is trimmed has no blanks at its ends, and a text without blanks there is left as it is. -/

theorem head?_trimStart (p : CodePoint → Bool) (t : Text) :
    ∀ c ∈ (trimStart p t).head?, p c = false := by
  intro c hc
  have hh := List.head?_dropWhile_not p t
  rw [trimStart, Option.mem_def] at hc
  rwa [hc] at hh

theorem trimEnd_prefix (p : CodePoint → Bool) (t : Text) : trimEnd p t <+: t := by
  rw [← List.reverse_suffix, trimEnd, List.reverse_reverse]
  exact List.dropWhile_suffix p

theorem head?_trim (t : Text) : ∀ c ∈ t.trim.head?, c.isBlank = false := by
  intro c hc
  obtain ⟨rest, hr⟩ := trimEnd_prefix CodePoint.isBlank (trimStart CodePoint.isBlank t)
  refine head?_trimStart CodePoint.isBlank t c ?_
  rw [trim] at hc
  rw [← hr, List.head?_append, Option.mem_def.mp hc]
  rfl

theorem getLast?_trim (t : Text) : ∀ c ∈ t.trim.getLast?, c.isBlank = false := by
  intro c hc
  rw [trim, trimEnd, List.getLast?_reverse] at hc
  exact head?_trimStart CodePoint.isBlank _ c hc

theorem trim_eq_self_iff : t.trim = t ↔
    (∀ c ∈ t.head?, c.isBlank = false) ∧ ∀ c ∈ t.getLast?, c.isBlank = false := by
  constructor
  · exact fun h => h ▸ ⟨head?_trim t, getLast?_trim t⟩
  · rintro ⟨hh, hl⟩
    have hr : trimStart CodePoint.isBlank t.reverse = t.reverse :=
      trimStart_eq_self (by rwa [List.head?_reverse])
    rw [trim, trimStart_eq_self hh, trimEnd]
    exact List.reverse_eq_iff.mpr hr

theorem trim_trim (t : Text) : t.trim.trim = t.trim :=
  trim_eq_self_iff.mpr ⟨head?_trim t, getLast?_trim t⟩

end LayeredConfig.Text
