import LayeredConfig.Proofs.Configuration.Run
import LayeredConfig.Proofs.Configuration.Validation
import LayeredConfig.Proofs.OrderedMap
import LayeredConfig.Proofs.Setting
import LayeredConfig.Proofs.Store.Expansion

/-! Defaults written down. Once every default of the registry is put where nothing was held, reads
that would have fallen back on a default find it in the store, and a reference to its key finds it
as well. -/

namespace LayeredConfig

namespace Setting

theorem find?_defaults_iff {key : Text} {d : Value} :
    OrderedMap.find? key defaults = some d ↔ ∃ x : Setting, x.key = key ∧ x.default? = some d := by
  have hl : ∀ xs : List Setting,
      OrderedMap.find? key (xs.filterMap fun x => x.default?.map fun v => (x.key, v)) = some d ↔
        ∃ x ∈ xs, x.key = key ∧ x.default? = some d := by
    intro xs
    induction xs with
    | nil => simp
    | cons x xs ih =>
      cases hx : x.default? with
      | none => simp [hx, ih]
      | some v =>
        by_cases hk : x.key = key
        · -- no later setting has the key
          have hu : ∀ y : Setting, y.key = key → y = x :=
            fun y hy => key_injective (hy.trans hk.symm)
          simp only [List.filterMap_cons, hx, Option.map_some, OrderedMap.find?, hk, if_true]
          constructor
          · intro h
            exact ⟨x, List.mem_cons_self, hk, hx.trans h⟩
          · rintro ⟨y, -, hy, hd⟩
            rw [hu y hy, hx] at hd
            exact hd
        · simp [hx, ih, OrderedMap.find?, hk]
  rw [defaults, hl]
  simp [mem_all]

theorem ne_null_of_mem_defaults {e : Text × Value} (h : e ∈ defaults) : e.2 ≠ .null := by
  obtain ⟨x, -, hx⟩ := List.mem_filterMap.mp h
  obtain ⟨d, hd, rfl⟩ := Option.map_eq_some_iff.mp hx
  exact (default_admits hd).ne_null

end Setting

namespace Store

variable {s : Store} {env : Environment} {key : Text} {d? : Option Value} {v : Value}

theorem find?_putDefault (s : Store) (k : Text) {v : Value} (hv : v ≠ .null) (key : Text) :
    (s.putDefault k v).find? key =
      if k = key ∧ (s.value key).isNull = true then some v else s.find? key := by
  rw [putDefault]
  by_cases hn : (s.value k).isNull = true
  · rw [if_pos hn, find?_put_of_ne_null s k hv]
    by_cases hk : k = key
    · subst hk
      simp [hn]
    · simp [hk]
  · rw [if_neg hn]
    by_cases hk : k = key
    · subst hk
      simp [hn]
    · simp [hk]

theorem find?_after_putDefault {es : List (Text × Value)} (he : ∀ e ∈ es, e.2 ≠ .null) (s : Store)
    (key : Text) :
    (s.after (es.map fun e => .putDefault e.1 e.2)).find? key =
      if (s.value key).isNull = true then (OrderedMap.find? key es).or (s.find? key)
      else s.find? key := by
  induction es generalizing s with
  | nil => simp
  | cons e es ih =>
    obtain ⟨hv, hes⟩ := List.forall_mem_cons.mp he
    have hp := find?_putDefault s e.1 hv key
    have hh : (Change.putDefault e.1 e.2).apply s = s.putDefault e.1 e.2 := rfl
    rw [List.map_cons, after_cons, hh, ih hes]
    by_cases hk : e.1 = key ∧ (s.value key).isNull = true
    · -- what is put here is not put again
      rw [if_pos hk] at hp
      rw [value_eq_of_find? hp, isNull_of_ne_null hv, hp]
      simp [hk, OrderedMap.find?]
    · rw [if_neg hk] at hp
      have hs : (s.putDefault e.1 e.2).value key = s.value key := by rw [value, value, hp]
      rw [hs, hp]
      by_cases hn : (s.value key).isNull = true
      · have hne : e.1 ≠ key := fun he => hk ⟨he, hn⟩
        simp [hn, OrderedMap.find?, hne]
      · simp [hn]

/-- The store once every default is put where nothing was held. -/
def withDefaults (s : Store) : Store :=
  s.after (Setting.defaults.map fun e => .putDefault e.1 e.2)

/-- Whether a key has no value but that of the registry. -/
def IsLeft (s : Store) (key : Text) : Prop :=
  s.value key = .null ∧ ∃ (x : Setting) (d : Value), x.key = key ∧ x.default? = some d

theorem find?_withDefaults_of_default {x : Setting} {d : Value} (hv : s.value x.key = .null)
    (hd : x.default? = some d) : s.withDefaults.find? x.key = some d := by
  rw [withDefaults, find?_after_putDefault fun _ => Setting.ne_null_of_mem_defaults,
    if_pos (isNull_iff.mpr hv), Setting.find?_defaults_iff.mpr ⟨x, rfl, hd⟩]
  rfl

theorem find?_withDefaults_of_not_isLeft (h : ¬ s.IsLeft key) :
    s.withDefaults.find? key = s.find? key := by
  rw [withDefaults, find?_after_putDefault fun _ => Setting.ne_null_of_mem_defaults]
  split_ifs with hn
  · cases hd : OrderedMap.find? key Setting.defaults with
    | none => rfl
    | some d =>
      obtain ⟨x, hx, hd⟩ := Setting.find?_defaults_iff.mp hd
      exact absurd ⟨isNull_iff.mp hn, x, d, hx, hd⟩ h
  · rfl

theorem value_withDefaults_of_not_isLeft (h : ¬ s.IsLeft key) :
    s.withDefaults.value key = s.value key := by
  rw [value, value, find?_withDefaults_of_not_isLeft h]

/-- Only the top layer changes, and only under keys of the registry. -/
theorem written_withDefaults (s : Store) {p : Text → Bool} (hp : ∀ x : Setting, p x.key = false) :
    s.withDefaults.written.restrict p = s.written.restrict p ∧
      s.withDefaults.sources = s.sources ∧ s.withDefaults.isStrict = s.isStrict := by
  have hk : ∀ e ∈ Setting.defaults, p e.1 = false ∧ e.2 ≠ .null := by
    intro e he
    refine ⟨?_, Setting.ne_null_of_mem_defaults he⟩
    obtain ⟨x, -, hx⟩ := List.mem_filterMap.mp he
    obtain ⟨d, -, rfl⟩ := Option.map_eq_some_iff.mp hx
    exact hp x
  rw [withDefaults]
  generalize Setting.defaults = es at hk
  induction es generalizing s with
  | nil => exact ⟨rfl, rfl, rfl⟩
  | cons e es ih =>
    obtain ⟨⟨hpe, hv⟩, hes⟩ := List.forall_mem_cons.mp hk
    have hs : (s.putDefault e.1 e.2).written.restrict p = s.written.restrict p ∧
        (s.putDefault e.1 e.2).sources = s.sources ∧
        (s.putDefault e.1 e.2).isStrict = s.isStrict := by
      rw [putDefault]
      split_ifs
      · rw [put, if_neg (by simp [isNull_of_ne_null hv])]
        exact ⟨OrderedMap.restrict_insert_of_not hpe s.written e.2, rfl, rfl⟩
      · exact ⟨rfl, rfl, rfl⟩
    obtain ⟨hw, hso, hst⟩ := ih (s.putDefault e.1 e.2) hes
    exact ⟨hw.trans hs.1, hso.trans hs.2.1, hst.trans hs.2.2⟩

-- to unfold it is to run through the whole registry; what it does is said above
attribute [irreducible] withDefaults

@[simp] theorem isStrict_withDefaults (s : Store) : s.withDefaults.isStrict = s.isStrict :=
  (s.written_withDefaults (p := fun _ => false) fun _ => rfl).2.2

theorem filter_keys_withDefaults (s : Store) {p : Text → Bool}
    (hp : ∀ x : Setting, p x.key = false) : s.withDefaults.keys.filter p = s.keys.filter p := by
  obtain ⟨hw, hs, -⟩ := s.written_withDefaults hp
  have hk := congrArg OrderedMap.keys hw
  rw [OrderedMap.keys_restrict, OrderedMap.keys_restrict] at hk
  rw [filter_keys, filter_keys, layers, layers, List.flatMap_cons, List.flatMap_cons, hk, hs]

/-! ### Reads -/

/-- A value whose text, if it is expanded, leads to no key that is left to its default. -/
def IsApart (s : Store) (v : Value) : Prop :=
  ∀ t, v.settingText? = some t → ∀ key, s.Reaches expansionDepth t key → ¬ s.IsLeft key

theorem isApart_of_isLiteral (h : ∀ t, v.settingText? = some t → t.IsLiteral) : s.IsApart v := by
  intro t ht key hr
  obtain ⟨via, hm, -⟩ := hr.exists_reference
  exact absurd hm (h t ht via)

/-- A text that is one reference, to a key that is not left, with a value that leads no further. -/
theorem isApart_reference (hn : Piece.IsName key) (hl : ¬ s.IsLeft key)
    (hv : ∀ t, (s.value key).settingText? = some t → t.IsLiteral) :
    s.IsApart (.text (Piece.reference key).written) := by
  intro t ht key' hr
  obtain rfl := Option.some.inj ht
  cases hr with
  | here hr _ =>
    rw [Piece.ofText_reference hn] at hr
    rwa [Piece.reference.inj (List.mem_singleton.mp hr)]
  | there hr _ hu h =>
    rw [Piece.ofText_reference hn] at hr
    rw [Piece.reference.inj (List.mem_singleton.mp hr)] at hu
    obtain ⟨via, hm, -⟩ := h.exists_reference
    exact absurd hm (hv _ hu via)

theorem isApart_null (s : Store) : s.IsApart .null := by
  refine isApart_of_isLiteral fun t ht => ?_
  cases ht
  exact Text.isLiteral_of_not_mem (by decide)

/-- Whether a read of a key without a value falls back on the default of the registry, if there is
one. -/
def FallsBack (s : Store) (key : Text) (d? : Option Value) : Prop :=
  ∀ x : Setting, x.key = key → s.value key = .null → ∀ d, x.default? = some d → d? = some d

theorem fallsBack_default (s : Store) (x : Setting) : s.FallsBack x.key x.default? := by
  intro y hy _ d hd
  rw [← Setting.key_injective hy, hd]

theorem fallsBack_of_not_isLeft (h : ¬ s.IsLeft key) (d? : Option Value) : s.FallsBack key d? :=
  fun x hx hv d hd => absurd ⟨hv, x, d, hx, hd⟩ h

theorem raw_withDefaults (h : s.FallsBack key d?) :
    s.withDefaults.raw key d? = s.raw key d? := by
  by_cases hl : s.IsLeft key
  · obtain ⟨hv, x, d, rfl, hd⟩ := hl
    have hw := value_eq_of_find? (find?_withDefaults_of_default hv hd)
    have hn : s.withDefaults.value x.key ≠ .null := by
      rw [hw]
      exact (Setting.default_admits hd).ne_null
    rw [raw_of_ne_null hn, hw, h x rfl hv d hd, raw_of_null hv]
  · simp only [raw, value_withDefaults_of_not_isLeft hl, isStrict_withDefaults]

theorem shownText_withDefaults (h : s.IsApart v) (env : Environment) :
    s.withDefaults.shownText env v = s.shownText env v :=
  shownText_congr fun t ht =>
    interpolate_congr fun key hr => value_withDefaults_of_not_isLeft (h t ht key hr)

theorem getText_withDefaults (h : s.FallsBack key d?) (hv : s.IsApart (s.value key))
    (hd : ∀ d, d? = some d → s.IsApart d) (env : Environment) :
    s.withDefaults.getText env key d? = s.getText env key d? := by
  refine readWith_congr (raw_withDefaults h) fun v hn hr => shownText_withDefaults ?_ env
  rcases mem_of_raw hr hn with rfl | hs
  · exact hv
  · exact hd v hs

theorem getInteger_withDefaults (h : s.FallsBack key d?) :
    s.withDefaults.getInteger key d? = s.getInteger key d? :=
  readWith_congr (raw_withDefaults h) fun _ _ _ => rfl

theorem getTruth_withDefaults (h : s.FallsBack key d?) :
    s.withDefaults.getTruth key d? = s.getTruth key d? :=
  readWith_congr (raw_withDefaults h) fun _ _ _ => rfl

theorem getNumber_withDefaults (h : s.FallsBack key d?) (rule : Rule) :
    s.withDefaults.getNumber rule key d? = s.getNumber rule key d? := by
  rw [getNumber, getNumber, getInteger_withDefaults h]

theorem getTextValue_withDefaults (h : s.FallsBack key d?) (hv : s.IsApart (s.value key))
    (hd : ∀ d, d? = some d → s.IsApart d) (env : Environment) :
    s.withDefaults.getTextValue env key d? = s.getTextValue env key d? := by
  rw [getTextValue, getTextValue, getText_withDefaults h hv hd]

theorem getNonEmpty_withDefaults (h : s.FallsBack key d?) (hv : s.IsApart (s.value key))
    (hd : ∀ d, d? = some d → s.IsApart d) (env : Environment) :
    s.withDefaults.getNonEmpty env key d? = s.getNonEmpty env key d? := by
  rw [getNonEmpty, getNonEmpty, getTextValue_withDefaults h hv hd]

/-! ### Settings -/

/-- The defaults refer to no key. -/
theorem isApart_default {x : Setting} {d : Value} (h : x.default? = some d)
    (hk : x.kind.isText = true) : s.IsApart d := by
  obtain ⟨u, rfl⟩ := (Setting.default_admits h).exists_text hk
  by_cases hx : x = .miniDataDir
  · subst hx
    cases h
    intro t ht key hr
    cases ht
    obtain ⟨via, hm, hn⟩ := hr.exists_reference
    rw [Setting.ofText_miniDataDir] at hm
    obtain rfl : via = "env:FLUO_HOME" := by simpa using hm
    exact absurd hn (by decide)
  · refine isApart_of_isLiteral fun t ht => ?_
    cases ht
    exact Setting.default_isLiteral h hx

theorem get_withDefaults {x : Setting} (h : x.kind.isText = true → s.IsApart (s.value x.key))
    (env : Environment) : s.withDefaults.get env x = s.get env x := by
  have hf := s.fallsBack_default x
  have hr : x.kind.read s.withDefaults env x.key x.default? =
      x.kind.read s env x.key x.default? := by
    cases hk : x.kind.isText with
    | true =>
      rw [read_of_isText hk, read_of_isText hk]
      exact getTextValue_withDefaults hf (h hk) (fun d hd => isApart_default hd hk) env
    | false =>
      cases hx : x.kind <;> simp only [hx, Kind.isText, reduceCtorEq] at hk <;>
        simp only [Kind.read, getInteger_withDefaults hf, getTruth_withDefaults hf]
  rw [get, get, hr]

theorem connectString_withDefaults
    (h : ∀ x ∈ [Setting.instanceZookeepers, .applicationName], s.IsApart (s.value x.key))
    (env : Environment) : s.withDefaults.connectString env = s.connectString env := by
  rw [connectString, connectString, get_withDefaults fun _ => h .instanceZookeepers (by decide),
    get_withDefaults fun _ => h .applicationName (by decide)]

theorem metrics_withDefaults (h : s.IsApart (s.value Setting.metricsYamlBase64.key))
    (env : Environment) : s.withDefaults.metrics env = s.metrics env := by
  rw [metrics, metrics, get_withDefaults fun _ => h]

theorem observers_withDefaults
    (h : ∀ key ∈ s.keys, Setting.observerSpace.isPrefixOf key = true → s.IsApart (s.value key))
    (env : Environment) : s.withDefaults.observers env = s.observers env := by
  rw [observers, observers, filter_keys_withDefaults s Setting.observerSpace_not_prefix]
  refine mapM_congr fun key hk => ?_
  obtain ⟨hm, hp⟩ := List.mem_filter.mp hk
  have hl : ¬ s.IsLeft key := by
    rintro ⟨-, x, d, rfl, -⟩
    rw [Setting.observerSpace_not_prefix] at hp
    exact nomatch hp
  have hf := fallsBack_of_not_isLeft hl none
  rw [observer, observer, getText_withDefaults hf (h key hm hp) nofun]

end Store

end LayeredConfig
