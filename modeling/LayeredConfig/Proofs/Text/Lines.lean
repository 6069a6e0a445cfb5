import LayeredConfig.Text.Blank

/-! Lines of a text. No line holds a line end, a line feed closes the text before it, and what
follows a line end has lines of its own. -/

namespace LayeredConfig.Text

theorem lines_cons {c : CodePoint} (t : Text) (hc : c ≠ .scalar '\r') :
    lines (c :: t) = if c.isLineEnd then [] :: lines t else consLine c (lines t) := by
  rw [lines]
  exact fun _ h _ => hc h

theorem lines_cons_of_not_lineEnd {c : CodePoint} (t : Text) (hc : c.isLineEnd = false) :
    lines (c :: t) = consLine c (lines t) := by
  have hr : c ≠ .scalar '\r' := by rintro rfl; exact absurd hc (by decide)
  rw [lines_cons t hr, if_neg (by simp [hc])]

theorem lines_newline (t : Text) : lines (.scalar '\n' :: t) = [] :: lines t := by
  rw [lines_cons t (by decide), if_pos (by decide)]

/-- A carriage return adds nothing to the line feed after it. -/
theorem lines_return_newline (t : Text) :
    lines (.scalar '\r' :: .scalar '\n' :: t) = lines (.scalar '\n' :: t) := by
  rw [lines_newline, lines]

theorem lines_return {t : Text} (ht : t.head? ≠ some (.scalar '\n')) :
    lines (.scalar '\r' :: t) = [] :: lines t := by
  rw [lines, if_pos (by decide)]
  rintro rest - rfl
  exact ht rfl

theorem lines_cons_of_lineEnd {c : CodePoint} {t : Text} (hc : c.isLineEnd = true)
    (hr : c = .scalar '\r' → t.head? ≠ some (.scalar '\n')) : lines (c :: t) = [] :: lines t := by
  by_cases h : c = .scalar '\r'
  · subst h
    exact lines_return (hr rfl)
  · rw [lines_cons t h, if_pos hc]

theorem mem_consLine {c : CodePoint} {l : Text} {ls : List Text} (h : l ∈ consLine c ls) :
    (∃ l', (l' = [] ∨ l' ∈ ls) ∧ l = c :: l') ∨ l ∈ ls := by
  cases ls with
  | nil => exact .inl ⟨[], .inl rfl, List.mem_singleton.mp h⟩
  | cons l' ls =>
    rcases List.mem_cons.mp h with h | h
    · exact .inl ⟨l', .inr List.mem_cons_self, h⟩
    · exact .inr (List.mem_cons_of_mem _ h)

/-- What holds of the empty line, and of a line with a character in front that is no line end
where it holds of the line, holds of all lines. -/
theorem forall_mem_lines {p : Text → Prop} {t : Text} (hnil : p [])
    (hcons : ∀ c ∈ t, ∀ l, c.isLineEnd = false → p l → p (c :: l)) : ∀ l ∈ lines t, p l := by
  induction t using lines.induct with
  | case1 => simp [lines]
  | case2 t ih =>
    rw [lines_return_newline, lines_newline]
    intro l hl
    rcases List.mem_cons.mp hl with rfl | hl
    · exact hnil
    · exact ih (fun c hc => hcons c (by simp [hc])) l hl
  | case3 c t hr he ih =>
    rw [lines, if_pos he]
    · intro l hl
      rcases List.mem_cons.mp hl with rfl | hl
      · exact hnil
      · exact ih (fun c hc => hcons c (List.mem_cons_of_mem _ hc)) l hl
    · exact hr
  | case4 c t hr he ih =>
    have he' : c.isLineEnd = false := by simpa using he
    rw [lines_cons_of_not_lineEnd t he']
    intro l hl
    have hh := ih (fun c hc => hcons c (List.mem_cons_of_mem _ hc))
    rcases mem_consLine hl with ⟨l', hl', rfl⟩ | hl
    · refine hcons c List.mem_cons_self l' he' ?_
      rcases hl' with rfl | hl'
      · exact hnil
      · exact hh l' hl'
    · exact hh l hl

theorem isLineEnd_of_mem_lines {t l : Text} (hl : l ∈ lines t) : ∀ c ∈ l, c.isLineEnd = false := by
  refine forall_mem_lines (p := fun l => ∀ c ∈ l, c.isLineEnd = false) (by simp) ?_ l hl
  intro c _ l hc hl d hd
  rcases List.mem_cons.mp hd with rfl | hd
  · exact hc
  · exact hl d hd

/-- The first line end closes the first line. -/
theorem lines_append_lineEnd {l : Text} {c : CodePoint} {t : Text}
    (hl : ∀ d ∈ l, d.isLineEnd = false) (hc : c.isLineEnd = true)
    (hr : c = .scalar '\r' → t.head? ≠ some (.scalar '\n')) :
    lines (l ++ c :: t) = l :: lines t := by
  induction l with
  | nil => exact lines_cons_of_lineEnd hc hr
  | cons d l ih =>
    rw [List.cons_append, lines_cons_of_not_lineEnd _ (hl d List.mem_cons_self),
      ih fun e he => hl e (List.mem_cons_of_mem _ he), consLine]

theorem lines_append_newline {l : Text} (t : Text) (hl : ∀ c ∈ l, c.isLineEnd = false) :
    lines (l ++ .scalar '\n' :: t) = l :: lines t :=
  lines_append_lineEnd hl (by decide) fun h => absurd h (by decide)

theorem lines_eq_singleton {l : Text} (hn : l ≠ []) (hl : ∀ c ∈ l, c.isLineEnd = false) :
    lines l = [l] := by
  induction l with
  | nil => exact absurd rfl hn
  | cons c l ih =>
    rw [lines_cons_of_not_lineEnd l (hl c List.mem_cons_self)]
    by_cases h : l = []
    · rw [h]
      rfl
    · rw [ih h fun d hd => hl d (List.mem_cons_of_mem _ hd), consLine]

theorem lines_flatMap_newline {ls : List Text}
    (hls : ∀ l ∈ ls, ∀ c ∈ l, c.isLineEnd = false) :
    lines (ls.flatMap fun l => l ++ [.scalar '\n']) = ls := by
  induction ls with
  | nil => rfl
  | cons l ls ih =>
    simp only [List.flatMap_cons, List.append_assoc, List.cons_append, List.nil_append]
    rw [lines_append_newline _ (hls l List.mem_cons_self),
      ih fun l' hl' => hls l' (List.mem_cons_of_mem _ hl')]

/-! Lines of texts put together. -/

theorem consLine_append (c : CodePoint) {ls : List Text} (ls' : List Text) (h : ls ≠ []) :
    consLine c (ls ++ ls') = consLine c ls ++ ls' := by
  cases ls with
  | nil => exact absurd rfl h
  | cons l ls => rfl

theorem lines_ne_nil {t : Text} (h : t ≠ []) : lines t ≠ [] := by
  induction t using lines.induct with
  | case1 => exact absurd rfl h
  | case2 t => simp [lines]
  | case3 c t hr hc => simp [lines.eq_3 c t hr, hc]
  | case4 c t hr hc =>
    rw [lines.eq_3 c t hr, if_neg hc]
    cases lines t <;> simp [consLine]

/-- Text put after a line end begins a line, unless it completes the line end. -/
theorem lines_append {t u : Text} (ht : ∀ c ∈ t.getLast?, c.isLineEnd = true)
    (hu : t.getLast? = some (.scalar '\r') → u.head? ≠ some (.scalar '\n')) :
    lines (t ++ u) = lines t ++ lines u := by
  have hl {c d : CodePoint} {t : Text} (h : t.getLast? = some d) : (c :: t).getLast? = some d := by
    rw [List.getLast?_cons, h]
    rfl
  induction t using lines.induct with
  | case1 => rfl
  | case2 t ih =>
    have hh := ih (fun c hc => ht c (hl (hl hc))) fun h => hu (hl (hl h))
    simp only [List.cons_append, lines_return_newline, lines_newline, hh]
  | case3 c t hr hc ih =>
    have hh := ih (fun d hd => ht d (hl hd)) fun h => hu (hl h)
    have hn : c = .scalar '\r' → (t ++ u).head? ≠ some (.scalar '\n') := by
      rintro rfl
      cases t with
      | nil => exact hu rfl
      | cons d t => simpa using fun h => hr t rfl (by rw [h])
    rw [List.cons_append, lines_cons_of_lineEnd hc hn, hh, lines.eq_3 c t hr, if_pos hc,
      List.cons_append]
  | case4 c t hr hc ih =>
    have hn : t ≠ [] := by
      rintro rfl
      exact hc (ht c rfl)
    have hh := ih (fun d hd => ht d (hl hd)) fun h => hu (hl h)
    have hc' : c.isLineEnd = false := by simpa using hc
    rw [List.cons_append, lines_cons_of_not_lineEnd _ hc', lines_cons_of_not_lineEnd _ hc', hh,
      consLine_append c _ (lines_ne_nil hn)]

/-- A line feed at the end closes the last line, or stands on a line of its own. -/
theorem lines_concat_newline (t : Text) :
    lines (t ++ [.scalar '\n']) = lines t ∨ lines (t ++ [.scalar '\n']) = lines t ++ [[]] := by
  induction t using lines.induct with
  | case1 => exact .inr rfl
  | case2 t ih =>
    simp only [List.cons_append, lines_return_newline, lines_newline]
    simpa using ih
  | case3 c t hr hc ih =>
    by_cases h : c = .scalar '\r' ∧ t = []
    · obtain ⟨rfl, rfl⟩ := h
      exact .inl rfl
    · have hn : c = .scalar '\r' → (t ++ [CodePoint.scalar '\n']).head? ≠ some (.scalar '\n') := by
        rintro rfl
        cases t with
        | nil => exact absurd ⟨rfl, rfl⟩ h
        | cons d t => simpa using fun h => hr t rfl (by rw [h])
      rw [List.cons_append, lines_cons_of_lineEnd hc hn, lines.eq_3 c t hr, if_pos hc]
      simpa using ih
  | case4 c t hr hc ih =>
    have hc' : c.isLineEnd = false := by simpa using hc
    rw [List.cons_append, lines_cons_of_not_lineEnd _ hc', lines_cons_of_not_lineEnd _ hc']
    rcases ih with hh | hh
    · exact .inl (by rw [hh])
    · rw [hh]
      by_cases hn : t = []
      · subst hn
        exact .inl rfl
      · exact .inr (consLine_append c _ (lines_ne_nil hn))

end LayeredConfig.Text
