import LayeredConfig.Configuration
import LayeredConfig.Proofs.Base64
import LayeredConfig.Proofs.Store.Reads
import LayeredConfig.Proofs.Store.References

/-! When settings can be read, and when the whole configuration is valid. The check of a setting
gives back the value it is given, so what a setter lets in and what a getter lets out are told by
one condition on values. -/

namespace LayeredConfig

theorem ApplicationName.firstFlaw?_eq_none_iff {index : Nat} {name : Text} :
    firstFlaw? index name = none ↔ ∀ c ∈ name, flaw? c = none := by
  induction name generalizing index with
  | nil => simp [firstFlaw?]
  | cons c name ih =>
    rw [firstFlaw?, List.forall_mem_cons]
    cases hc : flaw? c with
    | none => simpa using ih
    | some flaw => simp

theorem ApplicationName.check_eq_ok_iff {v : Value} {name : Text} :
    check v = .ok name ↔ v = .text name ∧ name ≠ [] ∧ ∀ c ∈ name, flaw? c = none := by
  cases v with
  | text t =>
    rw [check, checkText, Value.text.injEq]
    by_cases ht : t = []
    · subst ht
      simp +contextual [eq_comm]
    · rw [if_neg (by simpa using ht)]
      cases hf : firstFlaw? 0 t with
      | none =>
        rw [firstFlaw?_eq_none_iff] at hf
        simp only [Except.ok.injEq]
        exact ⟨fun h => ⟨h, h ▸ ht, h ▸ hf⟩, And.left⟩
      | some flaw =>
        simp only [reduceCtorEq, false_iff]
        rintro ⟨rfl, -, h⟩
        exact nomatch (firstFlaw?_eq_none_iff.mpr h).symm.trans hf
  | _ => simp [check]

namespace Kind

/-- The values that a setting of the kind may have. -/
def Admits (kind : Kind) (v : Value) : Prop :=
  match kind with
  | applicationName =>
    ∃ t, v = .text t ∧ t ≠ [] ∧ ∀ c ∈ t, ApplicationName.flaw? c = none
  | nonEmptyText | base64 => ∃ t, v = .text t ∧ t ≠ []
  | notNullText => ∃ t, v = .text t
  | positive | positiveLong => ∃ n, v = .int n ∧ Rule.positive.admits n = true
  | nonNegative => ∃ n, v = .int n ∧ Rule.nonNegative.admits n = true
  | retryTimeout => ∃ n, v = .int n ∧ Rule.retryTimeout.admits n = true
  | truth => ∃ b, v = .bool b

/-- A check that sees a value at its type gives the same value back. -/
theorem map_check_eq_ok_iff {α : Type} {r : Except Fault α} {inject : α → Value} {p : α → Prop}
    {v w : Value} (h : ∀ a, r = .ok a ↔ v = inject a ∧ p a) :
    r.map inject = .ok w ↔ w = v ∧ ∃ a, v = inject a ∧ p a := by
  simp only [Except.map_eq_ok_iff, h]
  constructor
  · rintro ⟨a, ⟨rfl, ha⟩, rfl⟩
    exact ⟨rfl, a, rfl, ha⟩
  · rintro ⟨rfl, a, rfl, ha⟩
    exact ⟨a, ⟨rfl, ha⟩, rfl⟩

theorem check_eq_ok_iff {kind : Kind} {property : Text} {v w : Value} :
    kind.check property v = .ok w ↔ w = v ∧ kind.Admits v := by
  cases kind with
  | applicationName => exact map_check_eq_ok_iff fun _ => ApplicationName.check_eq_ok_iff
  | nonEmptyText | base64 => exact map_check_eq_ok_iff fun _ => Check.nonEmpty_eq_ok_iff
  | notNullText =>
    have hh := map_check_eq_ok_iff (r := Check.notNull property v) (p := fun _ => True) (w := w)
      fun t => Check.notNull_eq_ok_iff.trans (and_iff_left trivial).symm
    simp only [and_true] at hh
    exact hh
  | positive | positiveLong | nonNegative | retryTimeout =>
    exact map_check_eq_ok_iff fun _ => Check.number_eq_ok_iff
  | truth => cases v <;> simp [check, Admits, Check.truth, Except.map, eq_comm]

theorem Admits.ne_null {kind : Kind} {v : Value} (h : kind.Admits v) : v ≠ .null := by
  rintro rfl
  cases kind <;> simp [Admits] at h

theorem Admits.ne_nil {kind : Kind} {t : Text} (h : kind.Admits (.text t))
    (hk : kind ≠ .notNullText) : t ≠ [] := by
  cases kind with
  | applicationName =>
    obtain ⟨u, hu, hne, -⟩ := h
    exact Value.text.inj hu ▸ hne
  | nonEmptyText | base64 =>
    obtain ⟨u, hu, hne⟩ := h
    exact Value.text.inj hu ▸ hne
  | notNullText => exact absurd rfl hk
  | positive | positiveLong | nonNegative | retryTimeout =>
    obtain ⟨n, hn, -⟩ := h
    cases hn
  | truth =>
    obtain ⟨b, hb⟩ := h
    cases hb

def isText : Kind → Bool
  | applicationName | nonEmptyText | notNullText | base64 => true
  | _ => false

theorem Admits.isText {kind : Kind} {t : Text} (h : kind.Admits (.text t)) :
    kind.isText = true := by
  cases kind with
  | applicationName | nonEmptyText | notNullText | base64 => rfl
  | positive | positiveLong | nonNegative | retryTimeout =>
    obtain ⟨n, hn, -⟩ := h
    exact nomatch hn
  | truth =>
    obtain ⟨b, hb⟩ := h
    exact nomatch hb

theorem Admits.exists_text {kind : Kind} {v : Value} (h : kind.Admits v)
    (hk : kind.isText = true) : ∃ t, v = .text t := by
  cases kind with
  | applicationName | nonEmptyText | base64 =>
    obtain ⟨t, ht, -⟩ := h
    exact ⟨t, ht⟩
  | notNullText => exact h
  | _ => exact nomatch hk

end Kind

namespace Store

variable {s : Store} {env : Environment}

theorem get_eq_ok_iff {x : Setting} {v : Value} : s.get env x = .ok v ↔
    x.kind.read s env x.key x.default? = .ok v ∧ x.kind.Admits v := by
  rw [get, Except.bind_eq_ok_iff]
  simp only [Kind.check_eq_ok_iff]
  constructor
  · rintro ⟨w, hr, rfl, ha⟩
    exact ⟨hr, ha⟩
  · rintro ⟨hr, ha⟩
    exact ⟨v, hr, rfl, ha⟩

theorem getTextValue_eq_text_iff {key t : Text} {d : Option Value} :
    s.getTextValue env key d = .ok (.text t) ↔ s.getText env key d = .ok (some t) := by
  rw [getTextValue, Except.bind_eq_ok_iff]
  constructor
  · rintro ⟨u?, hu, ht⟩
    rw [hu]
    cases u? with
    | none => exact nomatch ht
    | some u =>
      cases ht
      rfl
  · exact fun h => ⟨some t, h, rfl⟩

theorem getText_of_get {x : Setting} {t : Text} (h : s.get env x = .ok (.text t))
    (hk : x.kind.isText = true) : s.getText env x.key x.default? = .ok (some t) := by
  have hr := (get_eq_ok_iff.mp h).1
  rw [← getTextValue_eq_text_iff, ← hr]
  cases hx : x.kind <;> first | rfl | (rw [hx] at hk; exact nomatch hk)

/-! ### Reading by what is held -/

variable {key : Text} {d? : Option Value} {v : Value}

theorem raw_of_null {d : Value} (h : s.value key = .null) : s.raw key (some d) = .ok d := by
  simp only [raw, h]

theorem raw_of_ne_null (h : s.value key ≠ .null) (d? : Option Value) :
    s.raw key d? = .ok (s.value key) := by
  unfold raw
  cases hv : s.value key with
  | null => exact absurd hv h
  | _ => rfl

theorem mem_of_raw (h : s.raw key d? = .ok v) (hv : v ≠ .null) :
    v = s.value key ∨ d? = some v := by
  by_cases hn : s.value key = .null
  · cases d? with
    | none =>
      simp only [raw, hn] at h
      split_ifs at h
      exact absurd (Except.ok.inj h).symm hv
    | some d =>
      rw [raw_of_null hn] at h
      exact .inr (congrArg some (Except.ok.inj h))
  · rw [raw_of_ne_null hn] at h
    exact .inl (Except.ok.inj h).symm

theorem getTextValue_of_raw {t : Text} (h : s.raw key d? = .ok (.text t)) :
    s.getTextValue env key d? = (s.interpolate env t).map .text := by
  rw [getTextValue, getText, readWith, h]
  change (s.interpolate env t).map some >>= _ = _
  cases s.interpolate env t <;> rfl

theorem getInteger_of_raw {n : Int} (hr : s.raw key d? = .ok (.int n)) :
    s.getInteger key d? = .ok (some n) := by
  rw [getInteger, readWith, hr]
  rfl

theorem read_of_raw {kind : Kind} (hr : s.raw key d? = .ok v) (ha : kind.Admits v)
    (hk : kind.isText = false) : kind.read s env key d? = .ok v := by
  cases kind with
  | applicationName | nonEmptyText | base64 | notNullText => exact nomatch hk
  | positive | positiveLong | nonNegative | retryTimeout =>
    obtain ⟨n, rfl, -⟩ := ha
    rw [Kind.read, getInteger_of_raw hr]
    rfl
  | truth =>
    obtain ⟨b, rfl⟩ := ha
    have hb : s.getTruth key d? = .ok (some b) := by
      rw [getTruth, readWith, hr]
      rfl
    rw [Kind.read, hb]
    rfl

theorem read_of_isText {kind : Kind} (hk : kind.isText = true) :
    kind.read s env key d? = s.getTextValue env key d? := by
  cases kind <;> first | rfl | exact nomatch hk

/-- A text without references is checked as it stands. -/
theorem get_eq_check {x : Setting} {t : Text} (hr : s.raw x.key x.default? = .ok (.text t))
    (hk : x.kind.isText = true) (hl : t.IsLiteral) (env : Environment) :
    s.get env x = x.kind.check x.key (.text t) := by
  rw [get, read_of_isText hk, getTextValue_of_raw hr, interpolate_of_isLiteral hl]
  rfl

theorem get_of_isLiteral {x : Setting} {t : Text} (hr : s.raw x.key x.default? = .ok (.text t))
    (hk : x.kind.isText = true) (hl : t.IsLiteral) (ha : x.kind.Admits (.text t))
    (env : Environment) : s.get env x = .ok (.text t) := by
  rw [get_eq_check hr hk hl, Kind.check_eq_ok_iff]
  exact ⟨rfl, ha⟩

/-- A text is read if its references can be replaced and what comes of it is of the kind. -/
theorem exists_get_iff {x : Setting} {t : Text} (hr : s.raw x.key x.default? = .ok (.text t))
    (hk : x.kind.isText = true) :
    (∃ v, s.get env x = .ok v) ↔ ∃ u, s.interpolate env t = .ok u ∧ x.kind.Admits (.text u) := by
  simp only [get_eq_ok_iff, read_of_isText hk, getTextValue_of_raw hr, Except.map_eq_ok_iff]
  constructor
  · rintro ⟨v, ⟨u, hu, rfl⟩, ha⟩
    exact ⟨u, hu, ha⟩
  · rintro ⟨u, hu, ha⟩
    exact ⟨.text u, ⟨u, hu, rfl⟩, ha⟩

end Store

/-! ### Defaults -/

theorem Base64.isLiteral_encode (bs : List UInt8) : (encode bs).IsLiteral := by
  have hd := forall_mem_encode (p := (· ≠ .scalar '$')) (by decide) (by decide) bs
  exact Text.isLiteral_of_not_mem fun hm => hd _ hm rfl

namespace Setting

theorem default_admits {x : Setting} {d : Value} (h : x.default? = some d) : x.kind.Admits d := by
  cases x <;> cases h
  case accumuloClasspath | miniStartAccumulo => exact ⟨_, rfl⟩
  -- the text of the metrics is computed
  case metricsYamlBase64 => exact ⟨_, rfl, by decide +kernel⟩
  all_goals exact ⟨_, rfl, by decide⟩

theorem default_isLiteral {x : Setting} {t : Text} (h : x.default? = some (.text t))
    (hx : x ≠ .miniDataDir) : t.IsLiteral := by
  cases x <;> cases h
  case miniDataDir => exact absurd rfl hx
  case metricsYamlBase64 => exact Base64.isLiteral_encode _
  all_goals exact Text.isLiteral_of_not_mem (by decide)

theorem ofText_miniDataDir : Piece.ofText "${env:FLUO_HOME}/mini" =
    .reference "env:FLUO_HOME" :: ("/mini" : Text).map .character := by
  have hl : Text.IsLiteral "/mini" := Text.isLiteral_of_not_mem (by decide)
  rw [← hl.ofText_eq]
  exact Piece.ofText_of_leading? rfl

end Setting

namespace Store

/-- Defaults can be read, whatever the environment. -/
theorem exists_interpolate_default {s : Store} {env : Environment} {x : Setting} {t : Text}
    (h : x.default? = some (.text t)) :
    ∃ u, s.interpolate env t = .ok u ∧ x.kind.Admits (.text u) := by
  by_cases hx : x = .miniDataDir
  · subst hx
    cases h
    -- a variable can always be asked for, and the slash after it stays
    have he : s.Expandable expansionDepth "${env:FLUO_HOME}/mini" := by
      intro name hn
      rw [Setting.ofText_miniDataDir] at hn
      obtain rfl : name = "env:FLUO_HOME" := by simpa using hn
      exact Text.isEncodable_of_isScalar (Text.isScalar_ofString "FLUO_HOME")
    obtain ⟨u, hu⟩ : ∃ u, s.interpolate env _ = .ok u := exists_expand_iff.mpr he
    have hm : .scalar '/' ∈ u := by
      refine mem_of_expand hu ?_
      rw [Setting.ofText_miniDataDir]
      exact List.mem_cons_of_mem _ (List.mem_map_of_mem List.mem_cons_self)
    exact ⟨u, hu, u, rfl, List.ne_nil_of_mem hm⟩
  · exact ⟨t, interpolate_of_isLiteral (Setting.default_isLiteral h hx), Setting.default_admits h⟩

end Store

theorem Reading.setting_mem_all (x : Setting) : .setting x ∈ all := by cases x <;> decide

namespace Store

variable {s : Store} {env : Environment}

/-- A configuration is valid exactly if all its settings, its metrics and its observers read. -/
theorem validate_eq_ok_iff : s.validate env = .ok () ↔
    (∀ x, ∃ v, s.get env x = .ok v) ∧ (∃ bs, s.metrics env = .ok bs) ∧
      ∃ os, s.observers env = .ok os := by
  have hu {α : Type} {r : Except Fault α} : r.map (fun _ => ()) = .ok () ↔ ∃ a, r = .ok a := by
    rw [Except.map_eq_ok_iff]
    simp
  rw [validate, forM_eq_ok_iff]
  constructor
  · intro h
    exact ⟨fun x => hu.mp (h _ (Reading.setting_mem_all x)), hu.mp (h .metrics (by decide)),
      hu.mp (h .observers (by decide))⟩
  · rintro ⟨hx, hm, ho⟩ r -
    cases r with
    | setting x => exact hu.mpr (hx x)
    | connectString =>
      obtain ⟨servers, hs⟩ := hx .instanceZookeepers
      obtain ⟨name, hn⟩ := hx .applicationName
      have hc : s.connectString env = .ok (asText servers ++ .scalar '/' :: asText name) := by
        rw [connectString, hs, hn]
        rfl
      exact hu.mpr ⟨_, hc⟩
    | metrics => exact hu.mpr hm
    | observers => exact hu.mpr ho

end Store

end LayeredConfig
