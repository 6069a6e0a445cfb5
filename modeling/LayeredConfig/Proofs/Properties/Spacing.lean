import LayeredConfig.Proofs.Properties.Joining
import LayeredConfig.Proofs.Properties.RoundTrip

/-! Blanks around a key and around what separates it from its value. A form feed is a blank and a
line end. Lines are cut before blanks are looked for, so a form feed never separates a key from its
value. -/

namespace LayeredConfig.Properties

def formFeed : CodePoint := .scalar '\x0c'

/-- What stands for itself in a key and in a value. -/
def isPlain (c : CodePoint) : Bool :=
  c ≠ backslash && !isSeparator c && !isMargin c && !c.isLineEnd

structure IsPlainKey (key : Text) : Prop where
  ne_nil : key ≠ []
  plain : ∀ c ∈ key, isPlain c = true
  not_comment : ∀ c ∈ key.head?, isCommentMark c = false

/-- A key and a value that stand for themselves, with blanks, a separator or both between them. -/
structure SpacedEntry where
  key : Text
  value : Text
  lead : Text
  gap : Text
  sign : Option CodePoint
  pad : Text
  isPlainKey : IsPlainKey key
  value_plain : ∀ c ∈ value, isPlain c = true
  lead_margin : ∀ c ∈ lead, isMargin c = true
  gap_margin : ∀ c ∈ gap, isMargin c = true
  sign_separates : ∀ c ∈ sign, isSeparator c = true
  pad_margin : ∀ c ∈ pad, isMargin c = true
  divided : gap ++ sign.toList ≠ []

def SpacedEntry.text (e : SpacedEntry) : Text :=
  e.lead ++ (e.key ++ (e.gap ++ e.sign.toList ++ e.pad ++ e.value))

variable {key rest gap pad value w x : Text} {c : CodePoint} {sign : Option CodePoint}

theorem isPlain_iff : isPlain c = true ↔
    c ≠ backslash ∧ (isSeparator c || isMargin c) = false ∧ c.isLineEnd = false := by
  simp [isPlain, and_assoc]

theorem of_isSeparator (h : isSeparator c = true) :
    isMargin c = false ∧ isCommentMark c = false ∧ c.isLineEnd = false ∧ c ≠ backslash := by
  have hc : c = .scalar '=' ∨ c = .scalar ':' := by simpa [isSeparator] using h
  rcases hc with rfl | rfl
  · decide
  · decide

theorem IsPlainKey.head (hk : IsPlainKey key) (rest : Text) :
    ∃ c, (key ++ rest).head? = some c ∧ isMargin c = false ∧ isCommentMark c = false := by
  obtain ⟨c, key, rfl⟩ := List.exists_cons_of_ne_nil hk.ne_nil
  have hc := (isPlain_iff.mp (hk.plain c List.mem_cons_self)).2.1
  exact ⟨c, rfl, (Bool.or_eq_false_iff.mp hc).2, hk.not_comment c rfl⟩

/-! ### Blanks -/

theorem joinLines_consLine (hc : isMargin c = true) (ls : List Text) :
    joinLines none (Text.consLine c ls) = joinLines none ls := by
  have ht (l : Text) : trimMargin (c :: l) = trimMargin l := List.dropWhile_cons_of_pos hc
  cases ls with
  | nil =>
    refine (joinLines_of_isIgnored ?_).2
    intro l hl
    rw [List.mem_singleton.mp hl, ht]
    rfl
  | cons l ls =>
    have he : extend none (c :: l) = extend none l := by rw [extend, extend, ht]
    rw [Text.consLine, joinLines_cons, joinLines_cons none l, ended, leftOpen, he]
    rfl

theorem logicalLines_margin_append (hw : ∀ c ∈ w, isMargin c = true) (t : Text) :
    logicalLines (w ++ t) = logicalLines t := by
  induction w with
  | nil => rfl
  | cons c w ih =>
    obtain ⟨hc, hw⟩ := List.forall_mem_cons.mp hw
    have hr : c ≠ .scalar '\r' := by
      rintro rfl
      exact absurd hc (by decide)
    rw [List.cons_append, logicalLines, Text.lines_cons _ hr]
    split
    · exact ih hw
    · rw [joinLines_consLine hc]
      exact ih hw

theorem read_margin_append (hw : ∀ c ∈ w, isMargin c = true) (t : Text) :
    read (w ++ t) = read t := by
  rw [read, logicalLines_margin_append hw]
  rfl

theorem trimMargin_of_plain (hv : ∀ c ∈ value, isPlain c = true) : trimMargin value = value := by
  refine trimMargin_eq_self fun c hc => ?_
  have hp := (isPlain_iff.mp (hv c (List.mem_of_mem_head? hc))).2.1
  exact (Bool.or_eq_false_iff.mp hp).2

theorem dropSeparator_spaced (hg : ∀ c ∈ gap, isMargin c = true)
    (hs : ∀ c ∈ sign, isSeparator c = true) (hp : ∀ c ∈ pad, isMargin c = true)
    (hv : ∀ c ∈ value, isPlain c = true) :
    dropSeparator (gap ++ sign.toList ++ pad ++ value) = value := by
  have ht : trimMargin (pad ++ value) = value := by
    rw [trimMargin_margin_append hp, trimMargin_of_plain hv]
  rw [dropSeparator, List.append_assoc, List.append_assoc, trimMargin_margin_append hg]
  cases sign with
  | none =>
    rw [Option.toList_none, List.nil_append, ht]
    cases value with
    | nil => rfl
    | cons c value =>
      have hc := (isPlain_iff.mp (hv c List.mem_cons_self)).2.1
      simp [(Bool.or_eq_false_iff.mp hc).1]
  | some s =>
    have hm := (of_isSeparator (hs s rfl)).1
    rw [Option.toList_some, List.singleton_append, trimMargin_of_head? rfl hm]
    simp [hs s rfl, ht]

/-! ### One line -/

theorem joinLines_line (hp : Paired x)
    (hh : ∃ c, x.head? = some c ∧ isMargin c = false ∧ isCommentMark c = false)
    (ls : List Text) : joinLines none (x :: ls) = x :: joinLines none ls := by
  obtain ⟨c, hc, hm, hi⟩ := hh
  have ht := trimMargin_of_head? hc hm
  have hig : isIgnored x = false := by
    rw [isIgnored, hc]
    exact hi
  simp [joinLines, ht, hig, hp.not_continues]

theorem logicalLines_line (hx : ∀ c ∈ x, c ≠ backslash ∧ c.isLineEnd = false)
    (hh : ∃ c, x.head? = some c ∧ isMargin c = false ∧ isCommentMark c = false) :
    logicalLines x = [x] ∧ ∀ u, logicalLines (x ++ formFeed :: u) = x :: logicalLines u := by
  have hj := joinLines_line (.of_forall_ne fun c hc => (hx c hc).1) hh
  have hl : ∀ c ∈ x, c.isLineEnd = false := fun c hc => (hx c hc).2
  have hn : x ≠ [] := by
    rintro rfl
    simp at hh
  constructor
  · rw [logicalLines, Text.lines_eq_singleton hn hl, hj]
    rfl
  · intro u
    have hf : formFeed = .scalar '\r' → u.head? ≠ some (.scalar '\n') := fun h =>
      absurd h (by decide)
    rw [logicalLines, Text.lines_append_lineEnd hl (by decide) hf, hj]
    rfl

theorem entry_append (hk : ∀ c ∈ key, isPlain c = true)
    (hr : ∀ c ∈ rest.head?, (isSeparator c || isMargin c) = true)
    (hb : ∀ c ∈ rest, c ≠ backslash) : entry (key ++ rest) = .ok (key, dropSeparator rest) := by
  have hkey := fun c hc => isPlain_iff.mp (hk c hc)
  have hspan : spanKey (key ++ rest) = (key, rest) :=
    spanKey_append_eq (fun c hc => ⟨(hkey c hc).1, (hkey c hc).2.1⟩) hr
  have huk : unescape key = .ok key := unescape_eq_self fun c hc => (hkey c hc).1
  have hur : unescape (dropSeparator rest) = .ok (dropSeparator rest) :=
    unescape_eq_self fun c hc => hb c ((dropSeparator_suffix rest).subset hc)
  rw [entry, hspan, huk, hur]
  rfl

theorem read_line (hk : IsPlainKey key)
    (hr : ∀ c ∈ rest.head?, (isSeparator c || isMargin c) = true)
    (hb : ∀ c ∈ rest, c ≠ backslash ∧ c.isLineEnd = false) :
    read (key ++ rest) = .ok (.ofList [(key, dropSeparator rest)]) ∧
      ∀ u, read (key ++ rest ++ formFeed :: u) =
        (read u).map (OrderedMap.ofList [(key, dropSeparator rest)]).update := by
  have hx : ∀ c ∈ key ++ rest, c ≠ backslash ∧ c.isLineEnd = false := by
    intro c hc
    rcases List.mem_append.mp hc with hc | hc
    · exact ⟨(isPlain_iff.mp (hk.plain c hc)).1, (isPlain_iff.mp (hk.plain c hc)).2.2⟩
    · exact hb c hc
  obtain ⟨hone, hmore⟩ := logicalLines_line hx (hk.head rest)
  have he := entry_append hk.plain hr fun c hc => (hb c hc).1
  have hread : read (key ++ rest) = .ok (.ofList [(key, dropSeparator rest)]) := by
    rw [read, hone, List.mapM_cons, he]
    rfl
  refine ⟨hread, fun u => ?_⟩
  have hl : logicalLines (key ++ rest ++ formFeed :: u) =
      logicalLines (key ++ rest) ++ logicalLines u := by
    rw [hone, hmore]
    rfl
  rw [read_of_logicalLines hl, hread]
  rfl

/-- A line that is only a value is a comment, or a key without a value. -/
theorem exists_read_value (hv : ∀ c ∈ value, isPlain c = true) :
    ∃ n, read value = .ok n ∧ ∀ key, ∀ v ∈ n.get? key, v = [] := by
  by_cases hi : isIgnored value = true
  -- a value may begin with a comment mark, which hides it on a line of its own
  · have hn : logicalLines value = [] := by
      refine (joinLines_of_isIgnored fun l hl => ?_).2
      cases value with
      | nil => simp [Text.lines] at hl
      | cons c value =>
        rw [Text.lines_eq_singleton (by simp) fun d hd => (isPlain_iff.mp (hv d hd)).2.2] at hl
        rw [List.mem_singleton.mp hl, trimMargin_of_plain hv]
        exact hi
    exact ⟨.ofList [], by rw [read, hn]; rfl, by simp [OrderedMap.ofList]⟩
  · have hk : IsPlainKey value := by
      refine ⟨?_, hv, ?_⟩
      · rintro rfl
        exact hi rfl
      · intro c hc
        rw [isIgnored, hc] at hi
        exact Bool.eq_false_iff.mpr hi
    have hr : read (value ++ []) = .ok (.ofList [(value, dropSeparator [])]) :=
      (read_line hk (by simp) (by simp)).1
    rw [List.append_nil] at hr
    refine ⟨_, hr, fun key v h => ?_⟩
    have hm := OrderedMap.mem_of_mem_ofList (OrderedMap.mem_of_get? h)
    exact congrArg Prod.snd (List.mem_singleton.mp hm)

/-- What begins with a separator has the empty key. -/
theorem exists_read_separator (hc : isSeparator c = true) (hu : ∀ d ∈ w, d ≠ backslash) :
    ∃ n, read (c :: w) = .ok n ∧ [] ∈ n.keys := by
  obtain ⟨hm, hi, he, hb⟩ := of_isSeparator hc
  have hp : Paired (c :: w) := .plain hb (.of_forall_ne hu)
  obtain ⟨l, ls, hl⟩ : ∃ l ls, Text.lines (c :: w) = (c :: l) :: ls := by
    rw [Text.lines_cons_of_not_lineEnd w he]
    cases Text.lines w with
    | nil => exact ⟨[], [], rfl⟩
    | cons l ls => exact ⟨l, ls, rfl⟩
  have hpl : Paired (c :: l) := hp.of_mem_lines (hl ▸ List.mem_cons_self)
  have hlog : logicalLines (c :: w) = (c :: l) :: joinLines none ls := by
    rw [logicalLines, hl]
    exact joinLines_line hpl ⟨c, rfl, hm, hi⟩ ls
  obtain ⟨n, hn, -⟩ := exists_read_of_paired hp
  refine ⟨n, hn, ?_⟩
  rw [read, hlog] at hn
  obtain ⟨es, hes, rfl⟩ := Except.map_eq_ok_iff.mp hn
  obtain ⟨e, es, he, -, rfl⟩ := mapM_cons_eq_ok_iff.mp hes
  have hs : spanKey (c :: l) = ([], c :: l) := by rw [spanKey_cons l hb, hc]; rfl
  rw [entry, hs] at he
  obtain ⟨k, hk, he⟩ := Except.bind_eq_ok_iff.mp he
  obtain ⟨v, -, he⟩ := Except.bind_eq_ok_iff.mp he
  cases hk
  cases he
  exact OrderedMap.mem_keys_ofList.mpr List.mem_cons_self

/-! ### Blanks that end a line -/

theorem of_divides (h : (isSeparator c || isMargin c) = true) :
    c ≠ backslash ∧ (c ≠ formFeed → c.isLineEnd = false) := by
  have hc : c = .scalar '=' ∨ c = .scalar ':' ∨ c = .scalar ' ' ∨ c = .scalar '\t' ∨
      c = formFeed := by
    simpa [isSeparator, isMargin, formFeed, or_assoc] using h
  rcases hc with rfl | rfl | rfl | rfl | rfl
  all_goals decide

theorem divides_of_mem_spaced (hg : ∀ c ∈ gap, isMargin c = true)
    (hs : ∀ c ∈ sign, isSeparator c = true) (hp : ∀ c ∈ pad, isMargin c = true) :
    ∀ c ∈ gap ++ sign.toList ++ pad, (isSeparator c || isMargin c) = true := by
  intro c hc
  simp only [List.mem_append, Option.mem_toList] at hc
  rcases hc with (hc | hc) | hc
  · simp [hg c hc]
  · simp [hs c hc]
  · simp [hp c hc]

theorem not_mem_spaced (hg : formFeed ∉ gap) (hs : ∀ c ∈ sign, isSeparator c = true)
    (hp : formFeed ∉ pad) : formFeed ∉ gap ++ sign.toList ++ pad := by
  have hn : sign ≠ some formFeed := fun h => absurd (hs formFeed h) (by decide)
  simp [hg, hn, hp]

theorem read_formFeed (hk : IsPlainKey key)
    (hr : ∀ c ∈ rest, (isSeparator c || isMargin c) = true) (hf : formFeed ∉ rest)
    (hw : ∀ c ∈ w, isMargin c = true) (u : Text) :
    read (key ++ rest ++ formFeed :: (w ++ u)) =
      (read u).map (OrderedMap.ofList [(key, dropSeparator rest)]).update := by
  have hb : ∀ c ∈ rest, c ≠ backslash ∧ c.isLineEnd = false := fun c hc =>
    ⟨(of_divides (hr c hc)).1, (of_divides (hr c hc)).2 fun h => hf (h ▸ hc)⟩
  rw [(read_line hk (fun c hc => hr c (List.mem_of_mem_head? hc)) hb).2, read_margin_append hw]

theorem exists_read_formFeed (hk : IsPlainKey key)
    (hr : ∀ c ∈ rest, (isSeparator c || isMargin c) = true) (hf : formFeed ∉ rest)
    (hd : dropSeparator rest = []) (hw : ∀ c ∈ w, isMargin c = true)
    (hv : ∀ c ∈ value, isPlain c = true) :
    ∃ r, read (key ++ rest ++ formFeed :: (w ++ value)) = .ok r ∧
      (r = .ofList [(key, value)] ↔ value = []) := by
  have hread := read_formFeed hk hr hf hw value
  obtain ⟨n, hn, hnil⟩ := exists_read_value hv
  rw [hn, hd] at hread
  refine ⟨_, hread, ?_, ?_⟩
  · intro h
    have hg := congrArg (OrderedMap.get? · key) h
    simp only [OrderedMap.get?_update, OrderedMap.get?_ofList, List.reverse_singleton,
      OrderedMap.find?, if_true] at hg
    cases hc : n.get? key with
    | none =>
      rw [hc] at hg
      exact (Option.some.inj hg).symm
    | some v =>
      rw [hc] at hg
      exact Option.some.inj hg ▸ hnil key v hc
  · rintro rfl
    cases hn
    rfl

theorem exists_read_formFeed_separator (hk : IsPlainKey key)
    (hr : ∀ c ∈ rest, (isSeparator c || isMargin c) = true) (hf : formFeed ∉ rest)
    (hw : ∀ c ∈ w, isMargin c = true) (hc : isSeparator c = true) (hx : ∀ d ∈ x, d ≠ backslash)
    (value : Text) :
    ∃ r, read (key ++ rest ++ formFeed :: (w ++ c :: x)) = .ok r ∧
      r ≠ .ofList [(key, value)] := by
  obtain ⟨n, hn, hnil⟩ := exists_read_separator hc hx
  have hread := read_formFeed hk hr hf hw (c :: x)
  rw [hn] at hread
  refine ⟨_, hread, fun h => hk.ne_nil ?_⟩
  have hm : [] ∈ ((OrderedMap.ofList [(key, dropSeparator rest)]).update n).keys :=
    OrderedMap.mem_keys_update.mpr (.inr hnil)
  rw [h, OrderedMap.mem_keys_ofList] at hm
  exact (List.mem_singleton.mp hm).symm

namespace SpacedEntry

theorem read_text (e : SpacedEntry) (hg : formFeed ∉ e.gap) (hp : formFeed ∉ e.pad) :
    read e.text = .ok (.ofList [(e.key, e.value)]) := by
  have hdiv := divides_of_mem_spaced e.gap_margin e.sign_separates e.pad_margin
  have hf := not_mem_spaced hg e.sign_separates hp
  have hhead : ∀ c ∈ (e.gap ++ e.sign.toList ++ e.pad ++ e.value).head?,
      (isSeparator c || isMargin c) = true := by
    obtain ⟨d, m, hm⟩ := List.exists_cons_of_ne_nil e.divided
    rw [hm] at hdiv ⊢
    rintro c ⟨⟩
    exact hdiv d (by simp)
  have hb : ∀ c ∈ e.gap ++ e.sign.toList ++ e.pad ++ e.value,
      c ≠ backslash ∧ c.isLineEnd = false := by
    intro c hc
    rcases List.mem_append.mp hc with hc | hc
    · exact (of_divides (hdiv c hc)).imp_right fun h => h fun hh => hf (hh ▸ hc)
    · exact ⟨(isPlain_iff.mp (e.value_plain c hc)).1, (isPlain_iff.mp (e.value_plain c hc)).2.2⟩
  have hread := (read_line e.isPlainKey hhead hb).1
  rw [dropSeparator_spaced e.gap_margin e.sign_separates e.pad_margin e.value_plain] at hread
  rw [text, read_margin_append e.lead_margin, hread]

theorem exists_read_of_mem_pad (e : SpacedEntry) (hg : formFeed ∉ e.gap) (hp : formFeed ∈ e.pad) :
    ∃ r, read e.text = .ok r ∧ (r = .ofList [(e.key, e.value)] ↔ e.value = []) := by
  obtain ⟨a, b, hab, haf⟩ := List.eq_append_cons_of_mem hp
  obtain ⟨ha, hb⟩ := List.forall_mem_append.mp (hab ▸ e.pad_margin)
  have hd : dropSeparator (e.gap ++ e.sign.toList ++ a ++ []) = [] :=
    dropSeparator_spaced e.gap_margin e.sign_separates ha (by simp)
  rw [List.append_nil] at hd
  have ht : e.text = e.lead ++
      (e.key ++ (e.gap ++ e.sign.toList ++ a) ++ formFeed :: (b ++ e.value)) := by
    simp [text, hab]
  rw [ht, read_margin_append e.lead_margin]
  exact exists_read_formFeed e.isPlainKey (divides_of_mem_spaced e.gap_margin e.sign_separates ha)
    (not_mem_spaced hg e.sign_separates haf) hd (List.forall_mem_cons.mp hb).2 e.value_plain

/-- What follows the form feed is read as if the key were not before it. -/
theorem exists_read_of_mem_gap (e : SpacedEntry) (hg : formFeed ∈ e.gap) :
    ∃ r, read e.text = .ok r ∧
      (r = .ofList [(e.key, e.value)] ↔ e.sign = none ∧ e.value = []) := by
  obtain ⟨a, b, hab, haf⟩ := List.eq_append_cons_of_mem hg
  obtain ⟨ha, hb⟩ := List.forall_mem_append.mp (hab ▸ e.gap_margin)
  have hb := (List.forall_mem_cons.mp hb).2
  have hdiv : ∀ c ∈ a, (isSeparator c || isMargin c) = true := fun c hc => by simp [ha c hc]
  cases hs : e.sign with
  | none =>
    -- the blanks after the form feed only lead the line of the value
    have hd : dropSeparator a = [] := by
      have ht := trimMargin_margin_append ha []
      rw [List.append_nil] at ht
      rw [dropSeparator, ht]
      rfl
    have ht : e.text = e.lead ++ (e.key ++ a ++ formFeed :: (b ++ e.pad ++ e.value)) := by
      simp [text, hab, hs]
    rw [ht, read_margin_append e.lead_margin]
    simpa using exists_read_formFeed e.isPlainKey hdiv haf hd
      (List.forall_mem_append.mpr ⟨hb, e.pad_margin⟩) e.value_plain
  | some s =>
    have hx : ∀ c ∈ e.pad ++ e.value, c ≠ backslash := by
      intro c hc
      rcases List.mem_append.mp hc with hc | hc
      · exact (of_divides (by simp [e.pad_margin c hc])).1
      · exact (isPlain_iff.mp (e.value_plain c hc)).1
    have ht : e.text = e.lead ++
        (e.key ++ a ++ formFeed :: (b ++ s :: (e.pad ++ e.value))) := by
      simp [text, hab, hs]
    rw [ht, read_margin_append e.lead_margin]
    simpa using exists_read_formFeed_separator e.isPlainKey hdiv haf hb (e.sign_separates s hs) hx
      e.value

/-- The key and the value are read unless a form feed comes between them. A form feed does no harm
before the empty value, where no separator follows it. -/
theorem exists_read_text (e : SpacedEntry) : ∃ r, read e.text = .ok r ∧
    (r = .ofList [(e.key, e.value)] ↔
      (formFeed ∈ e.gap → e.sign = none ∧ e.value = []) ∧ (formFeed ∈ e.pad → e.value = [])) := by
  by_cases hg : formFeed ∈ e.gap
  · obtain ⟨r, hr, hi⟩ := e.exists_read_of_mem_gap hg
    refine ⟨r, hr, hi.trans ?_⟩
    exact ⟨fun h => ⟨fun _ => h, fun _ => h.2⟩, fun h => h.1 hg⟩
  · by_cases hp : formFeed ∈ e.pad
    · obtain ⟨r, hr, hi⟩ := e.exists_read_of_mem_pad hg hp
      refine ⟨r, hr, hi.trans ?_⟩
      exact ⟨fun h => ⟨fun hh => absurd hh hg, fun _ => h⟩, fun h => h.2 hp⟩
    · refine ⟨_, e.read_text hg hp, ?_⟩
      simp [hg, hp]

/-- A key and a value with nothing but a form feed between them. -/
def cut : SpacedEntry where
  key := "k"
  value := "v"
  lead := []
  gap := [formFeed]
  sign := none
  pad := []
  isPlainKey := ⟨by decide, by decide, by decide⟩
  value_plain := by decide
  lead_margin := by decide
  gap_margin := by decide
  sign_separates := by decide
  pad_margin := by decide
  divided := by decide

theorem read_cut_text : read cut.text = .ok (.ofList [("k", ""), ("v", "")]) ∧
    read cut.text ≠ .ok (.ofList [(cut.key, cut.value)]) := by
  have hr : read cut.text = .ok (.ofList [("k", ""), ("v", "")]) := rfl
  refine ⟨hr, fun h => ?_⟩
  rw [hr] at h
  have hk := congrArg OrderedMap.keys (Except.ok.inj h)
  exact absurd hk (by decide)

end SpacedEntry

end LayeredConfig.Properties
