import LayeredConfig.Properties.Writer
import LayeredConfig.Proofs.Text.Lines

/-! Text whose backslashes all escape the character after them. Such text stays such text while
it is cut into lines, keys and values, and its escapes can be resolved. -/

namespace LayeredConfig.Properties

/-- Every backslash stands before a character that it escapes: one that begins no numbered
escape and ends no line. -/
inductive Paired : Text → Prop where
  | nil : Paired []
  | plain {c : CodePoint} {t : Text} (hc : c ≠ backslash) (ht : Paired t) : Paired (c :: t)
  | escape {c : CodePoint} {t : Text} (hu : c ≠ .scalar 'u') (hl : c.isLineEnd = false)
      (ht : Paired t) : Paired (backslash :: c :: t)

theorem Paired.append {s t : Text} (hs : Paired s) (ht : Paired t) : Paired (s ++ t) := by
  induction hs with
  | nil => exact ht
  | plain hc _ ih => exact .plain hc ih
  | escape hu hl _ ih => exact .escape hu hl ih

theorem Paired.of_forall_ne {t : Text} (h : ∀ c ∈ t, c ≠ backslash) : Paired t := by
  induction t with
  | nil => exact .nil
  | cons c t ih =>
    exact .plain (h c List.mem_cons_self) (ih fun d hd => h d (List.mem_cons_of_mem _ hd))

theorem Paired.flatMap {α : Type} {f : α → Text} {xs : List α} (h : ∀ x ∈ xs, Paired (f x)) :
    Paired (xs.flatMap f) := by
  induction xs with
  | nil => exact .nil
  | cons x xs ih =>
    rw [List.flatMap_cons]
    exact (h x List.mem_cons_self).append (ih fun y hy => h y (List.mem_cons_of_mem _ hy))

/-! ### Cutting -/

theorem Paired.dropWhile {t : Text} (p : CodePoint → Bool) (hp : p backslash = false)
    (ht : Paired t) : Paired (t.dropWhile p) := by
  induction ht with
  | nil => exact .nil
  | @plain c t hc ht ih =>
    by_cases h : p c = true
    · rw [List.dropWhile_cons_of_pos h]
      exact ih
    · rw [List.dropWhile_cons_of_neg h]
      exact .plain hc ht
  | @escape c t hu hl ht =>
    rw [List.dropWhile_cons_of_neg (by simp [hp])]
    exact .escape hu hl ht

theorem trimMargin_eq_self {t : Text} (h : ∀ c ∈ t.head?, isMargin c = false) :
    trimMargin t = t := by
  cases t with
  | nil => rfl
  | cons c t => exact List.dropWhile_cons_of_neg (by simp [h c rfl])

theorem trimMargin_of_head? {t : Text} {c : CodePoint} (hc : t.head? = some c)
    (hm : isMargin c = false) : trimMargin t = t := by
  apply trimMargin_eq_self
  rw [hc]
  rintro d ⟨⟩
  exact hm

theorem trimMargin_margin_append {w : Text} (hw : ∀ c ∈ w, isMargin c = true) (t : Text) :
    trimMargin (w ++ t) = trimMargin t :=
  List.dropWhile_append_of_pos hw

theorem Paired.trimMargin {t : Text} (ht : Paired t) : Paired (trimMargin t) :=
  ht.dropWhile isMargin (by decide)

theorem isLineEnd_backslash : backslash.isLineEnd = false := by decide

theorem Paired.of_mem_lines {t l : Text} (ht : Paired t) (hl : l ∈ t.lines) : Paired l := by
  induction ht generalizing l with
  | nil => simp [Text.lines] at hl
  | @plain c t hc ht ih =>
    by_cases he : c.isLineEnd = true
    · by_cases hr : c = .scalar '\r' ∧ t.head? = some (.scalar '\n')
      · obtain ⟨rfl, hn⟩ := hr
        obtain ⟨t, rfl⟩ : ∃ t', t = .scalar '\n' :: t' := by
          cases t with
          | nil => simp at hn
          | cons d t => exact ⟨t, by simp_all⟩
        rw [Text.lines_return_newline] at hl
        exact ih hl
      · have hh : Text.lines (c :: t) = [] :: Text.lines t :=
          Text.lines_cons_of_lineEnd he fun hcr hn => hr ⟨hcr, hn⟩
        rw [hh] at hl
        rcases List.mem_cons.mp hl with rfl | hl
        · exact .nil
        · exact ih hl
    · rw [Text.lines_cons_of_not_lineEnd t (by simpa using he)] at hl
      rcases Text.mem_consLine hl with ⟨l', hl', rfl⟩ | hl
      · refine .plain hc ?_
        rcases hl' with rfl | hl'
        · exact .nil
        · exact ih hl'
      · exact ih hl
  | @escape c t hu hc ht ih =>
    rw [Text.lines_cons_of_not_lineEnd _ isLineEnd_backslash,
      Text.lines_cons_of_not_lineEnd t hc] at hl
    rcases ht : t.lines with _ | ⟨l', ls⟩
    · rw [ht] at hl
      rw [List.mem_singleton.mp hl]
      exact .escape hu hc .nil
    · rw [ht] at hl
      rcases List.mem_cons.mp hl with rfl | hl
      · exact .escape hu hc (ih (ht ▸ List.mem_cons_self))
      · exact ih (ht ▸ List.mem_cons_of_mem _ hl)

theorem spanKey_append (t : Text) : (spanKey t).1 ++ (spanKey t).2 = t := by
  induction t using spanKey.induct with
  | case1 => rfl
  | case2 c t ih => simp [spanKey, backslash, ih]
  | case3 c t hb hs => simp [spanKey, hs]
  | case4 c t hb hs ih => simpa [spanKey, hs] using ih

theorem spanKey_cons {c : CodePoint} (t : Text) (hc : c ≠ backslash) :
    spanKey (c :: t) =
      if isSeparator c || isMargin c then ([], c :: t)
      else (c :: (spanKey t).1, (spanKey t).2) := by
  rw [spanKey]
  exact fun _ _ h _ => hc h

/-- A key ends where a separator or a blank comes first. -/
theorem spanKey_append_eq {key rest : Text}
    (hk : ∀ c ∈ key, c ≠ backslash ∧ (isSeparator c || isMargin c) = false)
    (hr : ∀ c ∈ rest.head?, (isSeparator c || isMargin c) = true) :
    spanKey (key ++ rest) = (key, rest) := by
  induction key with
  | nil =>
    cases rest with
    | nil => rfl
    | cons c rest =>
      have hc : c ≠ backslash := by
        rintro rfl
        exact absurd (hr _ rfl) (by decide)
      rw [List.nil_append, spanKey_cons rest hc, if_pos (hr c rfl)]
  | cons c key ih =>
    obtain ⟨hb, hs⟩ := hk c List.mem_cons_self
    rw [List.cons_append, spanKey_cons _ hb, hs, ih fun d hd => hk d (List.mem_cons_of_mem _ hd)]
    rfl

theorem spanKey_escape (c : CodePoint) (t : Text) :
    spanKey (backslash :: c :: t) = (backslash :: c :: (spanKey t).1, (spanKey t).2) := rfl

theorem Paired.spanKey {t : Text} (ht : Paired t) :
    Paired (spanKey t).1 ∧ Paired (spanKey t).2 := by
  induction ht with
  | nil => exact ⟨.nil, .nil⟩
  | @plain c t hc ht ih =>
    rw [spanKey_cons t hc]
    split
    · exact ⟨.nil, .plain hc ht⟩
    · exact ⟨.plain hc ih.1, ih.2⟩
  | @escape c t hu hl ht ih => exact ⟨.escape hu hl ih.1, ih.2⟩

theorem dropSeparator_suffix (t : Text) : dropSeparator t <:+ t := by
  have hm : ∀ u : Text, Properties.trimMargin u <:+ u := fun u => List.dropWhile_suffix isMargin
  rw [dropSeparator]
  split
  · exact List.nil_suffix
  · rename_i c rest h
    have hh : c :: rest <:+ t := h ▸ hm t
    split
    · exact (hm rest).trans ((List.suffix_cons c rest).trans hh)
    · exact hh

theorem Paired.dropSeparator {t : Text} (ht : Paired t) : Paired (dropSeparator t) := by
  have hm := ht.trimMargin
  rw [Properties.dropSeparator]
  split
  · exact .nil
  · rename_i c rest h
    rw [h] at hm
    cases hm with
    | plain hc hr =>
      split
      · exact hr.trimMargin
      · exact .plain hc hr
    | escape hu hl hr =>
      rw [if_neg (by decide)]
      exact .escape hu hl hr

/-! ### Parity -/

theorem trailingBackslashes_cons {c : CodePoint} (t : Text) (hc : c ≠ backslash) :
    trailingBackslashes (c :: t) = trailingBackslashes t := by
  simp only [trailingBackslashes, List.reverse_cons, List.takeWhile_append]
  split
  · rename_i h
    simp [hc, h]
  · rfl

theorem trailingBackslashes_escape (c : CodePoint) (t : Text) :
    trailingBackslashes (backslash :: c :: t) % 2 = trailingBackslashes t % 2 := by
  simp only [trailingBackslashes, List.reverse_cons, List.append_assoc, List.takeWhile_append]
  split
  · rename_i h
    by_cases hc : c = backslash <;> simp [hc, h]
  · rfl

theorem Paired.not_continues {t : Text} (ht : Paired t) : continues t = false := by
  have hh : trailingBackslashes t % 2 = 0 := by
    induction ht with
    | nil => rfl
    | @plain c t hc _ ih => rw [trailingBackslashes_cons t hc, ih]
    | @escape c t _ _ _ ih => rw [trailingBackslashes_escape, ih]
  simp [continues, hh]

end LayeredConfig.Properties
