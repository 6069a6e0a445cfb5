import LayeredConfig.Proofs.OrderedMap
import LayeredConfig.Proofs.Properties.Paired
import LayeredConfig.Proofs.Traversal

/-! Physical lines joined into logical lines. All that one line hands on to the next is the logical
line that it leaves open. Where none is left open the text before and the text after are read one
by one, and a line that is broken by a backslash reads as the whole line. -/

namespace LayeredConfig.Properties

def newline : CodePoint := .scalar '\n'

/-- The logical line as far as a line takes it, and none after a line that is ignored. -/
def extend : Option Text → Text → Option Text
  | none, line => if isIgnored (trimMargin line) then none else some (trimMargin line)
  | some pending, line => some (pending ++ trimMargin line)

def ended (pending : Option Text) (line : Text) : Option Text :=
  (extend pending line).filter fun l => !continues l

def leftOpen (pending : Option Text) (line : Text) : Option Text :=
  ((extend pending line).filter continues).map List.dropLast

/-- Whether no logical line is left open at the end of a text. -/
def IsComplete (t : Text) : Prop := t.lines.foldl leftOpen none = none

instance (t : Text) : Decidable (IsComplete t) := inferInstanceAs (Decidable (_ = none))

variable {t u x y w : Text} {pending : Option Text} {line : Text} {ls ls' : List Text}

theorem joinLines_cons (pending : Option Text) (line : Text) (ls : List Text) :
    joinLines pending (line :: ls) =
      (ended pending line).toList ++ joinLines (leftOpen pending line) ls := by
  cases pending with
  | none =>
    by_cases hi : isIgnored (trimMargin line) = true
    · simp [joinLines, ended, leftOpen, extend, hi]
    · by_cases hc : continues (trimMargin line) = true
      · simp [joinLines, ended, leftOpen, extend, Option.filter, hi, hc]
      · simp [joinLines, ended, leftOpen, extend, Option.filter, hi, hc]
  | some pending =>
    by_cases hc : continues (pending ++ trimMargin line) = true
    · simp [joinLines, ended, leftOpen, extend, Option.filter, hc]
    · simp [joinLines, ended, leftOpen, extend, Option.filter, hc]

/-- Where no line is left open, what comes after is joined as if it came first. -/
theorem joinLines_append (h : ls.foldl leftOpen pending = none) :
    joinLines pending (ls ++ ls') = joinLines pending ls ++ joinLines none ls' := by
  induction ls generalizing pending with
  | nil =>
    have hp : pending = none := h
    rw [hp]
    rfl
  | cons line ls ih =>
    have hh := ih h
    rw [List.cons_append, joinLines_cons, joinLines_cons, hh, List.append_assoc]

/-- Lines that are ignored where they begin a logical line. -/
theorem joinLines_of_isIgnored (h : ∀ l ∈ ls, isIgnored (trimMargin l) = true) :
    ls.foldl leftOpen none = none ∧ joinLines none ls = [] := by
  induction ls with
  | nil => exact ⟨rfl, rfl⟩
  | cons line ls ih =>
    obtain ⟨hl, hls⟩ := List.forall_mem_cons.mp h
    have he : extend none line = none := by rw [extend, if_pos hl]
    have ho : leftOpen none line = none := by rw [leftOpen, he]; rfl
    have hn : ended none line = none := by rw [ended, he]; rfl
    have hh := ih hls
    rw [List.foldl_cons, joinLines_cons, ho, hn]
    exact hh

/-! ### Texts one after the other -/

theorem logicalLines_append (ht : IsComplete t) (hl : (t ++ u).lines = t.lines ++ u.lines) :
    logicalLines (t ++ u) = logicalLines t ++ logicalLines u := by
  rw [logicalLines, hl, joinLines_append ht]
  rfl

theorem IsComplete.concat_newline (ht : IsComplete t) :
    IsComplete (t ++ [newline]) ∧ logicalLines (t ++ [newline]) = logicalLines t := by
  rcases Text.lines_concat_newline t with h | h
  · exact ⟨by rw [IsComplete, newline, h]; exact ht, by rw [logicalLines, newline, h]; rfl⟩
  · have hb : ∀ l ∈ [([] : Text)], isIgnored (trimMargin l) = true := by
      simp [trimMargin, isIgnored]
    obtain ⟨ho, hj⟩ := joinLines_of_isIgnored hb
    constructor
    · rw [IsComplete, newline, h, List.foldl_append, ht]
      exact ho
    · rw [logicalLines, newline, h, joinLines_append ht, hj, List.append_nil]
      rfl

theorem logicalLines_append_newline (ht : IsComplete t) (u : Text) :
    logicalLines (t ++ newline :: u) = logicalLines t ++ logicalLines u := by
  obtain ⟨hc, hl⟩ := ht.concat_newline
  have hn : (t ++ [newline] ++ u).lines = (t ++ [newline]).lines ++ u.lines := by
    refine Text.lines_append ?_ ?_
    · rw [List.getLast?_concat]
      rintro c ⟨⟩
      decide
    · rw [List.getLast?_concat]
      intro h
      exact absurd h (by decide)
  have hh := logicalLines_append hc hn
  rwa [hl, List.append_assoc, List.singleton_append] at hh

theorem read_of_logicalLines {v : Text} (h : logicalLines v = logicalLines t ++ logicalLines u) :
    read v = do return (← read t).update (← read u) := by
  rw [read, read, read, h, List.mapM_append]
  cases (logicalLines t).mapM entry with
  | error fault => rfl
  | ok es =>
    cases (logicalLines u).mapM entry with
    | error fault => rfl
    | ok fs => exact congrArg Except.ok (OrderedMap.ofList_append es fs)

/-- Each text is read as if it stood alone. The new keys of the second come after the keys of the
first, and for a key in both its value is taken. -/
structure ReadsInTurn (t u : Text) : Prop where
  fails : (∃ fault, read (t ++ newline :: u) = .error fault) ↔
    (∃ fault, read t = .error fault) ∨ ∃ fault, read u = .error fault
  reads {m n : OrderedMap Text} (hm : read t = .ok m) (hn : read u = .ok n) :
    ∃ r, read (t ++ newline :: u) = .ok r ∧
      (r.keys = m.keys ++ n.keys.filter fun k => decide (k ∉ m.keys)) ∧
      ∀ key, r.get? key = (n.get? key).or (m.get? key)
  comments {v : Text} (hv : ∀ l ∈ v.lines, isIgnored (trimMargin l) = true) :
    read (t ++ newline :: (v ++ newline :: u)) = read (t ++ newline :: u)

theorem readsInTurn (ht : IsComplete t) (u : Text) : ReadsInTurn t u where
  fails := by
    rw [read_of_logicalLines (logicalLines_append_newline ht u)]
    cases read t with
    | error fault => simp [bind, Except.bind]
    | ok m => cases read u <;> simp [bind, Except.bind, pure, Except.pure]
  reads {m n} hm hn := by
    have hr : read (t ++ newline :: u) = .ok (m.update n) := by
      rw [read_of_logicalLines (logicalLines_append_newline ht u), hm, hn]
      rfl
    exact ⟨_, hr, m.keys_update n, m.get?_update n⟩
  comments {v} hv := by
    obtain ⟨ho, hj⟩ := joinLines_of_isIgnored hv
    have hl : logicalLines v = [] := hj
    have hvu : logicalLines (v ++ newline :: u) = logicalLines u := by
      rw [logicalLines_append_newline ho, hl, List.nil_append]
    have hh : logicalLines (t ++ newline :: (v ++ newline :: u)) =
        logicalLines (t ++ newline :: u) := by
      rw [logicalLines_append_newline ht, hvu, logicalLines_append_newline ht]
    rw [read, hh]
    rfl

/-- The line feed put between the texts completes the line end of the first one, and the line that
looks like a comment continues a line. -/
theorem readsInTurn_return : IsComplete "k=1\\\r  # 2\rl:3\r" ∧
    (∃ r, read (("k=1\\\r  # 2\rl:3\r" : Text) ++ newline :: "k 4\nm") = .ok r ∧
      r.keys = (["k", "l", "m"] : List Text) ∧ r.get? "k" = some ("4" : Text)) ∧
    read (("k=1\\\r  # 2\rl:3\r" : Text) ++
        newline :: (("\n\t!\\" : Text) ++ newline :: "k 4\nm")) =
      read (("k=1\\\r  # 2\rl:3\r" : Text) ++ newline :: "k 4\nm") := by
  have ht : IsComplete "k=1\\\r  # 2\rl:3\r" := by decide
  have h := readsInTurn ht "k 4\nm"
  have hm : read "k=1\\\r  # 2\rl:3\r" = .ok (.ofList [("k", "1# 2"), ("l", "3")]) := rfl
  have hn : read "k 4\nm" = .ok (.ofList [("k", "4"), ("m", "")]) := rfl
  obtain ⟨r, hr, hk, hg⟩ := h.reads hm hn
  have hc : ∀ l ∈ Text.lines "\n\t!\\", isIgnored (trimMargin l) = true := by decide
  exact ⟨ht, ⟨r, hr, hk, hg "k"⟩, h.comments hc⟩

/-! ### Lines that are broken -/

theorem trailingBackslashes_trimMargin (x : Text) :
    trailingBackslashes (trimMargin x) = trailingBackslashes x := by
  induction x with
  | nil => rfl
  | cons c x ih =>
    by_cases hc : isMargin c = true
    · have hne : c ≠ backslash := by
        rintro rfl
        exact absurd hc (by decide)
      have ht : trimMargin (c :: x) = trimMargin x := List.dropWhile_cons_of_pos hc
      rw [ht, ih, trailingBackslashes_cons x hne]
    · rw [trimMargin_eq_self (by simpa using hc)]

theorem continues_concat_backslash (h : trailingBackslashes x % 2 = 0) :
    continues (x ++ [backslash]) = true := by
  have hn : trailingBackslashes (x ++ [backslash]) = trailingBackslashes x + 1 := by
    simp [trailingBackslashes]
  simp only [continues, hn, decide_eq_true_eq]
  omega

theorem trimMargin_append (h : trimMargin x ≠ []) : trimMargin (x ++ y) = trimMargin x ++ y := by
  have hn : (x.dropWhile isMargin).isEmpty = false := by simpa [trimMargin] using h
  rw [trimMargin, List.dropWhile_append, hn]
  rfl

theorem extend_append (h : ∃ c ∈ (trimMargin x).head?, isCommentMark c = false) (y : Text) :
    extend none (x ++ y) = some (trimMargin x ++ y) := by
  obtain ⟨c, hc, hm⟩ := h
  obtain ⟨rest, hr⟩ : ∃ rest, trimMargin x = c :: rest := List.head?_eq_some_iff.mp hc
  have hn : trimMargin x ≠ [] := by simp [hr]
  have hi : isIgnored (trimMargin x ++ y) = false := by simp [isIgnored, hr, hm]
  rw [extend, trimMargin_append hn, hi]
  rfl

theorem joinLines_broken (hx : ∃ c ∈ (trimMargin x).head?, isCommentMark c = false)
    (hb : trailingBackslashes x % 2 = 0) (hw : ∀ c ∈ w, isMargin c = true)
    (hy : ∀ c ∈ y.head?, isMargin c = false) (ls : List Text) :
    joinLines none ((x ++ [backslash]) :: (w ++ y) :: ls) = joinLines none ((x ++ y) :: ls) := by
  have hc : continues (trimMargin x ++ [backslash]) = true :=
    continues_concat_backslash (by rwa [trailingBackslashes_trimMargin])
  have he : ended none (x ++ [backslash]) = none := by
    rw [ended, extend_append hx, Option.filter_some, hc]
    rfl
  have ho : leftOpen none (x ++ [backslash]) = some (trimMargin x) := by
    rw [leftOpen, extend_append hx, Option.filter_some, if_pos hc, Option.map_some,
      List.dropLast_concat]
  have ht : trimMargin (w ++ y) = y := by
    rw [trimMargin_margin_append hw]
    exact trimMargin_eq_self hy
  -- the second half takes the line as far as the whole line does
  have hs : extend (some (trimMargin x)) (w ++ y) = extend none (x ++ y) := by
    rw [extend_append hx, extend, ht]
  rw [joinLines_cons, he, ho, joinLines_cons, joinLines_cons none, ended, ended, leftOpen,
    leftOpen, hs]
  rfl

theorem lines_broken (hx : ∀ c ∈ x, c.isLineEnd = false) (hw : ∀ c ∈ w, c.isLineEnd = false)
    (hy : ∀ c ∈ y, c.isLineEnd = false) (u : Text) :
    Text.lines (x ++ backslash :: newline :: (w ++ y ++ newline :: u)) =
      (x ++ [backslash]) :: (w ++ y) :: u.lines := by
  have hfirst : ∀ c ∈ x ++ [backslash], c.isLineEnd = false := by
    intro c hc
    rcases List.mem_append.mp hc with hc | hc
    · exact hx c hc
    · rw [List.mem_singleton.mp hc]
      exact isLineEnd_backslash
  have hsecond : ∀ c ∈ w ++ y, c.isLineEnd = false := fun c hc =>
    (List.mem_append.mp hc).elim (hw c) (hy c)
  have hh := Text.lines_append_newline (w ++ y ++ newline :: u) hfirst
  rw [newline, Text.lines_append_newline u hsecond, List.append_assoc] at hh
  exact hh

theorem lines_append_unbroken (hl : ∀ c ∈ t.getLast?, c.isLineEnd = true)
    (hx : ∀ c ∈ x, c.isLineEnd = false) (hn : x ≠ []) (u : Text) :
    (t ++ (x ++ u)).lines = t.lines ++ Text.lines (x ++ u) := by
  obtain ⟨c, x, rfl⟩ := List.exists_cons_of_ne_nil hn
  have hc : c ≠ .scalar '\n' := by
    rintro rfl
    exact absurd (hx _ List.mem_cons_self) (by decide)
  exact Text.lines_append hl fun _ h => hc (Option.some.inj h)

/-- A line may be broken anywhere but after a backslash that escapes, unless the rest begins with a
blank. -/
theorem read_broken (ht : IsComplete t) (hl : ∀ c ∈ t.getLast?, c.isLineEnd = true)
    (hx : ∀ c ∈ x, c.isLineEnd = false) (hy : ∀ c ∈ y, c.isLineEnd = false)
    (hm : ∃ c ∈ (trimMargin x).head?, isCommentMark c = false)
    (hb : trailingBackslashes x % 2 = 0) (hw : ∀ c ∈ w, c = .scalar ' ' ∨ c = .scalar '\t')
    (hs : ∀ c ∈ y.head?, c ≠ .scalar ' ' ∧ c ≠ .scalar '\t') (u : Text) :
    read (t ++ (x ++ backslash :: newline :: (w ++ y ++ newline :: u))) =
      read (t ++ (x ++ (y ++ newline :: u))) := by
  have hn : x ≠ [] := by
    rintro rfl
    simp [trimMargin] at hm
  have hwe : ∀ c ∈ w, isMargin c = true ∧ c.isLineEnd = false := by
    intro c hc
    rcases hw c hc with rfl | rfl
    · decide
    · decide
  -- a form feed is a blank too, but it ends a line
  have hye : ∀ c ∈ y.head?, isMargin c = false := by
    intro c hc
    have hf : c ≠ .scalar '\x0c' := by
      rintro rfl
      exact absurd (hy _ (List.mem_of_mem_head? hc)) (by decide)
    simp [isMargin, hs c hc, hf]
  have hwhole : Text.lines (x ++ (y ++ newline :: u)) = (x ++ y) :: u.lines := by
    rw [← List.append_assoc]
    exact Text.lines_append_newline u fun c hc => (List.mem_append.mp hc).elim (hx c) (hy c)
  have hlines : logicalLines (t ++ (x ++ backslash :: newline :: (w ++ y ++ newline :: u))) =
      logicalLines (t ++ (x ++ (y ++ newline :: u))) := by
    rw [logicalLines, lines_append_unbroken hl hx hn, lines_broken hx (fun c hc => (hwe c hc).2) hy,
      joinLines_append ht, joinLines_broken hm hb (fun c hc => (hwe c hc).1) hye, logicalLines,
      lines_append_unbroken hl hx hn, hwhole, joinLines_append ht]
  rw [read, hlines]
  rfl

theorem read_broken_after_escape :
    read (("#\\\n" : Text) ++ (("k\\\\" : Text) ++ backslash :: newline ::
      ((" \t" : Text) ++ "u41" ++ newline :: "l"))) =
    read (("#\\\n" : Text) ++ (("k\\\\" : Text) ++ (("u41" : Text) ++ newline :: "l"))) :=
  read_broken (by decide) (by decide) (by decide) (by decide) (by decide) (by decide) (by decide)
    (by decide) _

end LayeredConfig.Properties
