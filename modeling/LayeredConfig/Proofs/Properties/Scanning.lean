import LayeredConfig.Proofs.Properties.Escape
import LayeredConfig.Proofs.Properties.Joining

/-! Scans of a line from the left, which go past a backslash together with the character after it.
No backslash of a logical line is left without such a character, the cut into key and value falls
between escapes, and reading fails only at a numbered escape without its four digits. -/

namespace LayeredConfig.Properties

/-- What stands after each backslash that a scan from the left meets. The scan goes past a
backslash together with the character after it. -/
def escapes : Text → List Text
  | [] => []
  | [.scalar '\\'] => [[]]
  | .scalar '\\' :: c :: rest => (c :: rest) :: escapes rest
  | _ :: rest => escapes rest

/-- How far the scan for the end of a key goes. A backslash takes it two characters on, even
where only one is left. -/
def keyEnd : Text → Nat
  | [] => 0
  | [.scalar '\\'] => 2
  | .scalar '\\' :: _ :: rest => keyEnd rest + 2
  | c :: rest => if isSeparator c || isMargin c then 0 else keyEnd rest + 1

/-- Resolving escapes, with a backslash at the end settled as given. -/
def unescapeOr (atEnd : Except Fault Text) : Text → Except Fault Text
  | [] => .ok []
  | [.scalar '\\'] => atEnd
  | .scalar '\\' :: .scalar 'u' :: a :: b :: c :: d :: rest =>
    match codeUnit? a b c d with
    | some u => (unescapeOr atEnd rest).map (u :: ·)
    | none => .error (.malformedEscape [a, b, c, d])
  | .scalar '\\' :: .scalar 'u' :: short => .error (.malformedEscape short)
  | .scalar '\\' :: c :: rest => (unescapeOr atEnd rest).map (unescaped c :: ·)
  | c :: rest => (unescapeOr atEnd rest).map (c :: ·)

variable {t : Text}

/-- The four ways in which a scan from the left meets what is left of a text. -/
@[elab_as_elim]
theorem scan_induction {motive : Text → Prop} (nil : motive []) (lone : motive [backslash])
    (escape : ∀ c t, motive t → motive (backslash :: c :: t))
    (plain : ∀ c t, c ≠ backslash → motive t → motive (c :: t)) (t : Text) : motive t := by
  induction t using escapes.induct with
  | case1 => exact nil
  | case2 => exact lone
  | case3 c t ih => exact escape c t ih
  | case4 c t hn he ih =>
    refine plain c t ?_ ih
    rintro rfl
    cases t with
    | nil => exact hn rfl rfl
    | cons d t => exact he d t rfl rfl

/-! ### Escapes of key and value -/

theorem escapes_escape (c : CodePoint) (t : Text) :
    escapes (backslash :: c :: t) = (c :: t) :: escapes t := rfl

theorem escapes_cons {c : CodePoint} (t : Text) (hc : c ≠ backslash) :
    escapes (c :: t) = escapes t := by
  rw [escapes]
  · exact fun h _ => hc h
  · exact fun _ _ h _ => hc h

theorem keyEnd_cons {c : CodePoint} (t : Text) (hc : c ≠ backslash) :
    keyEnd (c :: t) = if isSeparator c || isMargin c then 0 else keyEnd t + 1 := by
  rw [keyEnd]
  · exact fun h _ => hc h
  · exact fun _ _ h _ => hc h

theorem nil_mem_escapes_iff : [] ∈ escapes t ↔ trailingBackslashes t % 2 = 1 := by
  induction t using scan_induction with
  | nil => decide
  | lone => decide
  | escape c t ih =>
    rw [escapes_escape, trailingBackslashes_escape, ← ih]
    simp
  | plain c t hc ih => rw [escapes_cons t hc, trailingBackslashes_cons t hc, ih]

theorem spanKey_eq (t : Text) : spanKey t = (t.take (keyEnd t), t.drop (keyEnd t)) := by
  induction t using scan_induction with
  | nil => rfl
  | lone => decide
  | escape c t ih => rw [spanKey_escape, ih]; rfl
  | plain c t hc ih =>
    rw [spanKey_cons t hc, keyEnd_cons t hc, ih]
    split <;> rfl

theorem keyEnd_le_length (h : [] ∉ escapes t) : keyEnd t ≤ t.length := by
  induction t using scan_induction with
  | nil => decide
  | lone => exact absurd (by decide) h
  | escape c t ih =>
    have hh := ih fun hn => h (List.mem_cons_of_mem _ hn)
    simp only [backslash, keyEnd, List.length_cons]
    omega
  | plain c t hc ih =>
    have hh := ih (escapes_cons t hc ▸ h)
    rw [keyEnd_cons t hc, List.length_cons]
    split <;> omega

theorem divides_of_head?_spanKey (t : Text) :
    ∀ c ∈ (spanKey t).2.head?, (isSeparator c || isMargin c) = true := by
  induction t using scan_induction with
  | nil => simp [spanKey]
  | lone => decide
  | escape c t ih => exact ih
  | plain c t hc ih =>
    rw [spanKey_cons t hc]
    split
    · rintro d ⟨⟩
      assumption
    · exact ih

/-- The cut after the key falls between escapes. -/
theorem escapes_spanKey (t : Text) :
    escapes t = (escapes (spanKey t).1).map (· ++ (spanKey t).2) ++ escapes (spanKey t).2 := by
  induction t using scan_induction with
  | nil => rfl
  | lone => decide
  | escape c t ih =>
    simp only [spanKey_escape, escapes_escape, List.map_cons, List.cons_append, spanKey_append]
    rw [← ih]
  | plain c t hc ih =>
    rw [spanKey_cons t hc, escapes_cons t hc]
    split
    · exact (escapes_cons t hc).symm
    · rwa [escapes_cons _ hc]

theorem spanKey_rest_eq_nil (h : [] ∈ escapes (spanKey t).1) : (spanKey t).2 = [] := by
  induction t using scan_induction with
  | nil => rfl
  | lone => decide
  | escape c t ih =>
    rw [spanKey_escape, escapes_escape] at h
    exact ih (by simpa using h)
  | plain c t hc ih =>
    rw [spanKey_cons t hc] at h ⊢
    split_ifs at h ⊢ with hd
    · simp [escapes] at h
    · exact ih (escapes_cons _ hc ▸ h)

theorem escapes_dropWhile {p : CodePoint → Bool} (hp : p backslash = false) (t : Text) :
    escapes (t.dropWhile p) = escapes t := by
  induction t with
  | nil => rfl
  | cons c t ih =>
    by_cases h : p c = true
    · have hc : c ≠ backslash := by
        rintro rfl
        simp [hp] at h
      rw [List.dropWhile_cons_of_pos h, ih, escapes_cons t hc]
    · rw [List.dropWhile_cons_of_neg h]

theorem escapes_trimMargin (t : Text) : escapes (trimMargin t) = escapes t :=
  escapes_dropWhile (by decide) t

theorem escapes_dropSeparator (t : Text) : escapes (dropSeparator t) = escapes t := by
  rw [← escapes_trimMargin t, dropSeparator]
  cases h : trimMargin t with
  | nil => rfl
  | cons c rest =>
    by_cases hs : isSeparator c = true
    · have hc : c ≠ backslash := by
        rintro rfl
        exact absurd hs (by decide)
      simp only [hs, if_true]
      rw [escapes_trimMargin, escapes_cons rest hc]
    · simp only [hs, if_false, Bool.false_eq_true]

/-! ### Numbered escapes -/

def hexDigits : Text := "0123456789abcdefABCDEF"

/-- Whether a text begins with the four digits of a code unit. -/
def beginsWithUnit (t : Text) : Bool := (t.take 4).length = 4 && (t.take 4).all hexDigits.contains

/-- Whether what stands after a backslash is a `u` without its four digits. -/
def isMalformed : Text → Bool
  | .scalar 'u' :: rest => !beginsWithUnit rest
  | _ => false

theorem hexValue?_of_mem : ∀ c ∈ hexDigits, ∃ n < 16, c.hexValue? = some n := by decide

theorem mem_hexDigits_of_hexValue? {c : CodePoint} {n : Nat} (h : c.hexValue? = some n) :
    c ∈ hexDigits := by
  cases c with
  | surrogate p => exact nomatch h
  | scalar c =>
    have hr : (48 ≤ c.toNat ∧ c.toNat ≤ 57) ∨ (97 ≤ c.toNat ∧ c.toNat ≤ 102) ∨
        (65 ≤ c.toNat ∧ c.toNat ≤ 70) := by
      simp only [CodePoint.hexValue?] at h
      split_ifs at h with h1 h2 h3
      · exact .inl h1
      · exact .inr (.inl h2)
      · exact .inr (.inr h3)
    have hd : ∀ n < 103, ((48 ≤ n ∧ n ≤ 57) ∨ (97 ≤ n ∧ n ≤ 102) ∨ (65 ≤ n ∧ n ≤ 70)) →
        CodePoint.ascii n ∈ hexDigits := by decide
    have hh := hd c.toNat (by omega) hr
    rwa [CodePoint.ascii, Char.ofNat_toNat] at hh

theorem isSome_ofNat? {n : Nat} (h : n < 0x10000) : (CodePoint.ofNat? n).isSome = true := by
  by_cases hv : n.isValidChar
  · rw [CodePoint.ofNat?, dif_pos hv]
    rfl
  · have hs : 0xD800 ≤ n ∧ n < 0xE000 := by
      simp only [Nat.isValidChar] at hv
      omega
    rw [CodePoint.ofNat?, dif_neg hv, dif_pos hs]
    rfl

theorem exists_codeUnit?_iff {a b c d : CodePoint} :
    (∃ u, codeUnit? a b c d = some u) ↔ beginsWithUnit [a, b, c, d] = true := by
  have hb : beginsWithUnit [a, b, c, d] = true ↔
      a ∈ hexDigits ∧ b ∈ hexDigits ∧ c ∈ hexDigits ∧ d ∈ hexDigits := by
    simp [beginsWithUnit]
  rw [hb]
  constructor
  · rintro ⟨u, hu⟩
    simp only [codeUnit?, bind, Option.bind_eq_some_iff] at hu
    obtain ⟨k, hk, l, hl, m, hm, n, hn, -⟩ := hu
    exact ⟨mem_hexDigits_of_hexValue? hk, mem_hexDigits_of_hexValue? hl,
      mem_hexDigits_of_hexValue? hm, mem_hexDigits_of_hexValue? hn⟩
  · rintro ⟨ha, hb, hc, hd⟩
    obtain ⟨k, hk, hkv⟩ := hexValue?_of_mem a ha
    obtain ⟨l, hl, hlv⟩ := hexValue?_of_mem b hb
    obtain ⟨m, hm, hmv⟩ := hexValue?_of_mem c hc
    obtain ⟨n, hn, hnv⟩ := hexValue?_of_mem d hd
    have hu : (CodePoint.ofNat? (4096 * k + 256 * l + 16 * m + n)).isSome = true :=
      isSome_ofNat? (by omega)
    simpa [codeUnit?, hkv, hlv, hmv, hnv] using Option.isSome_iff_exists.mp hu

theorem ne_backslash_of_mem_hexDigits : ∀ c ∈ hexDigits, c ≠ backslash := by decide

theorem ne_backslash_of_codeUnit? {a b c d u : CodePoint} (hu : codeUnit? a b c d = some u) :
    ∀ x ∈ [a, b, c, d], x ≠ backslash := by
  intro x hx
  have ht := exists_codeUnit?_iff.mp ⟨u, hu⟩
  refine ne_backslash_of_mem_hexDigits x ?_
  simpa using List.all_eq_true.mp (Bool.and_eq_true_iff.mp ht).2 x hx

/-- A numbered escape can be resolved if its digits are there, and then the rest must be. -/
theorem exists_unescape_number_iff (t : Text) :
    (∃ fault, unescape (backslash :: .scalar 'u' :: t) = .error fault) ↔
      beginsWithUnit t = false ∨ ∃ fault, unescape t = .error fault := by
  rcases t with _ | ⟨a, _ | ⟨b, _ | ⟨c, _ | ⟨d, rest⟩⟩⟩⟩
  · simp [backslash, unescape, beginsWithUnit]
  · simp [backslash, unescape, beginsWithUnit]
  · simp [backslash, unescape, beginsWithUnit]
  · simp [backslash, unescape, beginsWithUnit]
  · have hb : beginsWithUnit (a :: b :: c :: d :: rest) = beginsWithUnit [a, b, c, d] := rfl
    rw [hb, backslash, unescape]
    cases hu : codeUnit? a b c d with
    | none =>
      have hf : beginsWithUnit [a, b, c, d] = false := by
        rw [← Bool.not_eq_true, ← exists_codeUnit?_iff, hu]
        simp
      simp [hf]
    | some u =>
      have ht := exists_codeUnit?_iff.mp ⟨u, hu⟩
      have hd := ne_backslash_of_codeUnit? hu
      simp only [List.forall_mem_cons] at hd
      obtain ⟨ha, hb, hc, hd, -⟩ := hd
      rw [unescape_cons _ ha, unescape_cons _ hb, unescape_cons _ hc, unescape_cons _ hd]
      simp [Except.exists_map_eq_error_iff, ht]

/-- Whether a scan of a text from the left meets a numbered escape without its digits. -/
def hasMalformed (t : Text) : Bool := (escapes t).any isMalformed

theorem exists_unescape_eq_error_iff (t : Text) :
    (∃ fault, unescape t = .error fault) ↔ hasMalformed t = true := by
  induction t using scan_induction with
  | nil => simp [unescape, hasMalformed, escapes]
  | lone => simp [backslash, unescape, hasMalformed, escapes, isMalformed, Except.map]
  | escape c t ih =>
    rw [hasMalformed, escapes_escape, List.any_cons, Bool.or_eq_true, ← hasMalformed, ← ih]
    by_cases hu : c = .scalar 'u'
    · subst hu
      rw [exists_unescape_number_iff, isMalformed, Bool.not_eq_true']
    · have hm : isMalformed (c :: t) = false := by
        rw [isMalformed]
        rintro rest ⟨⟩
        exact hu rfl
      rw [unescape_escape t hu, Except.exists_map_eq_error_iff, hm]
      simp
  | plain c t hc ih =>
    rw [unescape_cons t hc, Except.exists_map_eq_error_iff, hasMalformed, escapes_cons t hc, ih,
      hasMalformed]

theorem beginsWithUnit_append {s r : Text} (hr : ∀ c ∈ r.head?, c ∉ hexDigits) :
    beginsWithUnit (s ++ r) = beginsWithUnit s := by
  cases r with
  | nil => rw [List.append_nil]
  | cons c r =>
    by_cases hl : 4 ≤ s.length
    · rw [beginsWithUnit, beginsWithUnit, List.take_append_of_le_length hl]
    · -- with the character that is no digit among the first four neither has its digits
      have hm : c ∈ (s ++ c :: r).take 4 := by
        obtain ⟨k, hk⟩ : ∃ k, 4 - s.length = k + 1 := ⟨3 - s.length, by omega⟩
        rw [List.take_append, hk, List.take_succ_cons]
        simp
      have hf : ((s ++ c :: r).take 4).all hexDigits.contains = false := by
        rw [← Bool.not_eq_true, List.all_eq_true]
        exact fun h => hr c rfl (by simpa using h c hm)
      have hs : (s.take 4).length ≠ 4 := by
        rw [List.length_take]
        omega
      rw [beginsWithUnit, beginsWithUnit, hf, decide_eq_false hs, Bool.and_false, Bool.false_and]

theorem isMalformed_append {s r : Text} (hs : s ≠ []) (hr : ∀ c ∈ r.head?, c ∉ hexDigits) :
    isMalformed (s ++ r) = isMalformed s := by
  obtain ⟨c, s, rfl⟩ := List.exists_cons_of_ne_nil hs
  by_cases hu : c = .scalar 'u'
  · subst hu
    rw [List.cons_append, isMalformed, isMalformed, beginsWithUnit_append hr]
  · rw [List.cons_append, isMalformed, isMalformed]
    · rintro rest ⟨⟩
      exact hu rfl
    · rintro rest ⟨⟩
      exact hu rfl

theorem not_mem_hexDigits {c : CodePoint} (h : (isSeparator c || isMargin c) = true) :
    c ∉ hexDigits := by
  have hd : ∀ c ∈ hexDigits, (isSeparator c || isMargin c) = false := by decide
  intro hm
  simp [hd c hm] at h

/-- No digit of a numbered escape ends a key, so that key and value hold its digits if the line
does. -/
theorem hasMalformed_eq (l : Text) : hasMalformed l =
    (hasMalformed (spanKey l).1 || hasMalformed (dropSeparator (spanKey l).2)) := by
  have hr : ∀ c ∈ (spanKey l).2.head?, c ∉ hexDigits := fun c hc =>
    not_mem_hexDigits (divides_of_head?_spanKey l c hc)
  have hk : ((escapes (spanKey l).1).map (· ++ (spanKey l).2)).any isMalformed =
      hasMalformed (spanKey l).1 := by
    rw [List.any_map, hasMalformed, Bool.eq_iff_iff, List.any_eq_true, List.any_eq_true]
    refine exists_congr fun s => and_congr_right fun hs => ?_
    by_cases hn : s = []
    · subst hn
      rw [Function.comp_apply, spanKey_rest_eq_nil hs, List.nil_append]
    · rw [Function.comp_apply, isMalformed_append hn hr]
  rw [hasMalformed, escapes_spanKey l, List.any_append, hk, hasMalformed, hasMalformed,
    escapes_dropSeparator]

theorem exists_entry_eq_error_iff (l : Text) :
    (∃ fault, entry l = .error fault) ↔ hasMalformed l = true := by
  rw [hasMalformed_eq, Bool.or_eq_true, ← exists_unescape_eq_error_iff,
    ← exists_unescape_eq_error_iff, entry]
  cases unescape (spanKey l).1 with
  | error fault => simp [bind, Except.bind]
  | ok key =>
    cases unescape (dropSeparator (spanKey l).2) with
    | error fault => simp [bind, Except.bind]
    | ok value => simp [bind, Except.bind, pure, Except.pure]

theorem exists_read_eq_error_iff (t : Text) :
    (∃ fault, read t = .error fault) ↔ ∃ l ∈ logicalLines t, hasMalformed l = true := by
  rw [read, Except.exists_map_eq_error_iff, exists_mapM_eq_error_iff]
  exact exists_congr fun l => and_congr_right fun _ => exists_entry_eq_error_iff l

/-! ### Logical lines -/

theorem continues_eq_false_iff {l : Text} :
    continues l = false ↔ trailingBackslashes l % 2 = 0 := by
  rw [continues, decide_eq_false_iff_not]
  omega

/-- A line that goes on is left open without the backslash at its end. -/
theorem trailingBackslashes_dropLast {l : Text} (h : continues l = true) :
    trailingBackslashes l.dropLast % 2 = 0 := by
  obtain rfl | ⟨l, c, rfl⟩ := List.eq_nil_or_concat l
  · exact absurd h (by decide)
  · rw [List.concat_eq_append] at h ⊢
    simp only [continues, trailingBackslashes, List.reverse_append, List.reverse_singleton,
      List.singleton_append, decide_eq_true_eq] at h
    rw [List.dropLast_concat, trailingBackslashes]
    by_cases hc : c = backslash
    · rw [List.takeWhile_cons_of_pos (by simpa using hc), List.length_cons] at h
      omega
    · rw [List.takeWhile_cons_of_neg (by simpa using hc)] at h
      exact absurd h (by decide)

theorem trailingBackslashes_of_ended {pending : Option Text} {line l : Text}
    (h : ended pending line = some l) : trailingBackslashes l % 2 = 0 := by
  obtain ⟨-, hc⟩ := Option.filter_eq_some_iff.mp h
  exact continues_eq_false_iff.mp (by simpa using hc)

theorem trailingBackslashes_of_leftOpen {pending : Option Text} {line l : Text}
    (h : leftOpen pending line = some l) : trailingBackslashes l % 2 = 0 := by
  obtain ⟨l, hl, rfl⟩ := Option.map_eq_some_iff.mp h
  exact trailingBackslashes_dropLast (Option.filter_eq_some_iff.mp hl).2

theorem trailingBackslashes_of_mem_joinLines {pending : Option Text} {ls : List Text} {l : Text}
    (hp : ∀ p, pending = some p → trailingBackslashes p % 2 = 0) (hl : l ∈ joinLines pending ls) :
    trailingBackslashes l % 2 = 0 := by
  induction ls generalizing pending with
  | nil =>
    have hn : joinLines pending [] = pending.toList := by cases pending <;> rfl
    rw [hn, Option.mem_toList] at hl
    exact hp l hl
  | cons line ls ih =>
    rw [joinLines_cons, List.mem_append, Option.mem_toList] at hl
    rcases hl with hl | hl
    · exact trailingBackslashes_of_ended hl
    · exact ih (fun p => trailingBackslashes_of_leftOpen) hl

theorem trailingBackslashes_of_mem_logicalLines {l : Text} (hl : l ∈ logicalLines t) :
    trailingBackslashes l % 2 = 0 :=
  trailingBackslashes_of_mem_joinLines (by simp) hl

/-! ### Backslashes without a character after them -/

theorem unescapeOr_cons {atEnd : Except Fault Text} {c : CodePoint} (t : Text)
    (hc : c ≠ backslash) :
    unescapeOr atEnd (c :: t) = (unescapeOr atEnd t).map (c :: ·) := by
  rw [unescapeOr]
  · exact fun h _ => hc h
  · exact fun _ _ _ _ _ h _ => hc h
  · exact fun _ h _ => hc h
  · exact fun _ _ h _ => hc h

/-- Reading keeps a backslash at the end as it is; elsewhere nothing is left to settle. -/
theorem unescapeOr_eq {atEnd : Except Fault Text}
    (h : [] ∈ escapes t → atEnd = .ok [backslash]) : unescapeOr atEnd t = unescape t := by
  induction t using unescape.induct with
  | case1 => rfl
  | case2 a b c d t u hu ih =>
    have hd := ne_backslash_of_codeUnit? hu
    simp only [List.forall_mem_cons] at hd
    obtain ⟨ha, hb, hc, hd, -⟩ := hd
    have he : escapes (a :: b :: c :: d :: t) = escapes t := by
      rw [escapes_cons _ ha, escapes_cons _ hb, escapes_cons _ hc, escapes_cons _ hd]
    have hh := ih fun hn => h (List.mem_cons_of_mem _ (he ▸ hn))
    simp only [unescapeOr, unescape, hu, hh]
  | case3 a b c d t hu => simp only [unescapeOr, unescape, hu]
  | case4 short hs => rw [unescapeOr.eq_4 _ _ hs, unescape.eq_3 _ hs]
  | case5 c t h1 hu ih =>
    have hh := ih fun hn => h (List.mem_cons_of_mem _ hn)
    rw [unescapeOr.eq_5 _ _ _ h1 hu, unescape.eq_4 _ _ h1 hu, hh]
  | case6 c t h1 h2 h3 ih =>
    by_cases hc : c = backslash
    · subst hc
      obtain rfl : t = [] := by
        cases t with
        | nil => rfl
        | cons d t => exact (h3 d t rfl rfl).elim
      exact h (by decide)
    · rw [unescapeOr_cons t hc, unescape_cons t hc, ih fun hn => h (escapes_cons t hc ▸ hn)]

/-- Resolving the escapes of a text never comes to a backslash with no character after it: however
one were settled, the outcome is the same. -/
structure IsSettled (t : Text) : Prop where
  even : trailingBackslashes t % 2 = 0
  unescapeOr_eq (atEnd : Except Fault Text) : unescapeOr atEnd t = unescape t

theorem isSettled_of_not_mem (h : [] ∉ escapes t) : IsSettled t where
  even := by
    rw [nil_mem_escapes_iff] at h
    omega
  unescapeOr_eq _ := unescapeOr_eq fun hn => absurd hn h

/-- The scan for the end of the key stops in the line, and what it cuts off and what it leaves can
be taken escape by escape. -/
structure IsScannable (l : Text) : Prop where
  even : trailingBackslashes l % 2 = 0
  keyEnd_le : keyEnd l ≤ l.length
  cut : spanKey l = (l.take (keyEnd l), l.drop (keyEnd l))
  key : IsSettled (spanKey l).1
  value : IsSettled (dropSeparator (spanKey l).2)

theorem isScannable_of_even {l : Text} (h : trailingBackslashes l % 2 = 0) : IsScannable l := by
  have hn : [] ∉ escapes l := by
    rw [nil_mem_escapes_iff]
    omega
  refine ⟨h, keyEnd_le_length hn, spanKey_eq l, ?_, ?_⟩
  · refine isSettled_of_not_mem fun hk => hn ?_
    have hl := spanKey_append l
    rw [spanKey_rest_eq_nil hk, List.append_nil] at hl
    rwa [hl] at hk
  · refine isSettled_of_not_mem fun hv => hn ?_
    rw [escapes_dropSeparator] at hv
    rw [escapes_spanKey l]
    exact List.mem_append_right _ hv

/-- Every logical line can be scanned, and a text is refused exactly for a numbered escape without
its four digits. -/
theorem isScannable_and_read_fails_iff (t : Text) :
    (∀ l ∈ logicalLines t, IsScannable l) ∧
      ((∃ fault, read t = .error fault) ↔ ∃ l ∈ logicalLines t, hasMalformed l = true) :=
  ⟨fun _ hl => isScannable_of_even (trailingBackslashes_of_mem_logicalLines hl),
    exists_read_eq_error_iff t⟩

theorem joined_isScannable :
    ("a\\\\\\:b = \\\\u00" : Text) ∈ logicalLines "a\\\\\\\n  \\:b = \\\\u00\\" ∧
      IsScannable "a\\\\\\:b = \\\\u00" ∧ ∃ fault, read "k\\u00=41" = .error fault := by
  have hl : ("a\\\\\\:b = \\\\u00" : Text) ∈
      logicalLines "a\\\\\\\n  \\:b = \\\\u00\\" := by decide
  refine ⟨hl, (isScannable_and_read_fails_iff _).1 _ hl, ?_⟩
  exact (isScannable_and_read_fails_iff _).2.mpr ⟨"k\\u00=41", by decide, by decide⟩

end LayeredConfig.Properties
