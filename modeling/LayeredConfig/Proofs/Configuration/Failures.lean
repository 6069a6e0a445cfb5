import LayeredConfig.Proofs.Configuration.Observers
import LayeredConfig.Proofs.Configuration.Validation
import LayeredConfig.Proofs.Observer.Form
import LayeredConfig.Proofs.Store.Reload

/-! What a configuration from a property file can fail with. All that it holds is text, so its
checks and its observers fail with errors of this library only. One thing goes past them: a variable
of the environment whose name cannot be asked for. -/

namespace LayeredConfig

/-! ### Checks -/

theorem ApplicationName.endsKnown_check (v : Value) : EndsKnown (check v) := by
  cases v with
  | text name =>
    refine .ite (.error rfl) ?_
    cases firstFlaw? 0 name with
    | none => exact .ok name
    | some flaw => exact .error rfl
  | _ => exact .error rfl

theorem Check.endsKnown_notNull (property : Text) (v : Value) : EndsKnown (notNull property v) := by
  cases v with
  | text t => exact .ok t
  | _ => exact .error rfl

theorem Check.endsKnown_nonEmpty (property : Text) (v : Value) :
    EndsKnown (nonEmpty property v) :=
  (endsKnown_notNull property v).bind fun t _ => .ite (.error rfl) (.ok t)

theorem Check.endsKnown_number (rule : Rule) (property : Text) (v : Value) :
    EndsKnown (number rule property v) := by
  have hi : EndsKnown (integer property v) := by
    cases v with
    | int n => exact .ok n
    | _ => exact .error rfl
  exact hi.bind fun n _ => .ite (.ok n) (.error rfl)

theorem Kind.endsKnown_check (kind : Kind) (property : Text) (v : Value) :
    EndsKnown (kind.check property v) := by
  cases kind with
  | applicationName => exact EndsKnown.map_iff.mpr (ApplicationName.endsKnown_check v)
  | nonEmptyText | base64 => exact EndsKnown.map_iff.mpr (Check.endsKnown_nonEmpty property v)
  | notNullText => exact EndsKnown.map_iff.mpr (Check.endsKnown_notNull property v)
  | positive | positiveLong | nonNegative | retryTimeout =>
    exact EndsKnown.map_iff.mpr (Check.endsKnown_number _ property v)
  | truth =>
    cases v with
    | bool b => exact .ok _
    | _ => exact .error rfl

theorem Value.endsKnown_toInteger (key : Text) (v : Value) : EndsKnown (v.toInteger key) := by
  unfold toInteger
  split
  · exact .error rfl
  · exact .ok _
  · split
    · exact .ok _
    · exact .error rfl

theorem Value.endsKnown_toTruth (key : Text) {v : Value} (h : v.plain?.isSome = true) :
    EndsKnown (v.toTruth key) := by
  obtain ⟨hn, -⟩ | ⟨-, hb | he⟩ := toTruth_cases key v
  · rw [hn] at h
    cases h
  · exact .of_exists hb
  · rw [he]
    exact .error rfl

theorem Base64.endsKnown_decode (t : Text) : EndsKnown (decode t) := by
  rw [decode]
  cases decodeGroups? false t.trim with
  | some bytes => exact .ok bytes
  | none => exact .error rfl

namespace Store

variable {s : Store} {env : Environment} {key t : Text}

/-! ### References -/

theorem not_isKnown_of_resolve {expand : Text → Except Fault Text} {p : Piece} {fault : Fault}
    (he : ∀ u fault, expand u = .error fault → ¬ fault.IsKnown)
    (h : s.resolve env expand p = .error fault) : ¬ fault.IsKnown := by
  cases p with
  | character c => cases h
  | reference name =>
    cases hn : Text.dropPrefix? environmentMark name with
    | some named =>
      rw [resolve_of_environment hn, Environment.get?] at h
      cases hb : named.systemBytes with
      | ok bytes => simp [hb, Except.map] at h
      | error place =>
        rw [hb] at h
        cases h
        exact Bool.false_ne_true
    | none =>
      by_cases hv : s.value name = .null
      · rw [resolve_of_null hn hv] at h
        cases h
      · rw [resolve_of_ne_null hn hv] at h
        rcases Except.bind_eq_error_iff.mp h with h | ⟨u, -, h⟩
        · rw [Value.settingText] at h
          cases hu : (s.value name).settingText? with
          | some u => simp [hu] at h
          | none =>
            rw [hu] at h
            cases h
            exact Bool.false_ne_true
        · exact he u fault h

theorem not_isKnown_of_expand {depth : Nat} {fault : Fault}
    (h : s.expand env depth t = .error fault) : ¬ fault.IsKnown := by
  induction depth generalizing t fault with
  | zero => cases h
  | succ depth ih =>
    rcases Except.bind_eq_error_iff.mp h with h | ⟨us, -, h⟩
    · obtain ⟨p, -, hp⟩ := exists_of_mapM_eq_error h
      exact not_isKnown_of_resolve (fun _ _ => ih) hp
    · cases h

theorem endsKnown_interpolate_iff :
    EndsKnown (s.interpolate env t) ↔ s.Expandable expansionDepth t := by
  constructor
  · intro h
    have hu : ∃ u, s.interpolate env t = .ok u := by
      cases hi : s.interpolate env t with
      | ok u => exact ⟨u, rfl⟩
      | error fault => exact absurd (h fault hi) (not_isKnown_of_expand hi)
    exact exists_expand_iff.mp hu
  · exact fun h => .of_exists (exists_expand_iff.mpr h)

/-! ### Reads -/

theorem endsKnown_raw (s : Store) (key : Text) (d? : Option Value) : EndsKnown (s.raw key d?) := by
  by_cases hv : s.value key = .null
  · cases d? with
    | some d =>
      rw [raw_of_null hv]
      exact .ok d
    | none =>
      simp only [raw, hv]
      cases s.isStrict with
      | true => exact .error rfl
      | false => exact .ok _
  · rw [raw_of_ne_null hv]
    exact .ok _

theorem endsKnown_readWith {α : Type} {d? : Option Value} {convert : Value → Except Fault α}
    (h : ∀ v, v ≠ .null → s.raw key d? = .ok v → EndsKnown (convert v)) :
    EndsKnown (s.readWith key d? convert) := by
  refine (endsKnown_raw s key d?).bind fun v hr => ?_
  by_cases hv : v = .null
  · subst hv
    exact .ok none
  · have hc := EndsKnown.map_iff (f := some) |>.mpr (h v hv hr)
    cases v with
    | null => exact absurd rfl hv
    | _ => exact hc

def IsTextual (s : Store) : Prop :=
  ∀ key, s.contains key = true → ∃ t, s.value key = .text t

/-- Whether all texts that are held can be read. -/
def IsExpandable (s : Store) : Prop :=
  ∀ key t, s.value key = .text t → s.Expandable expansionDepth t

/-- Reading a configuration fails with errors of this library only. -/
structure FailsKnown (s : Store) (env : Environment) : Prop where
  getText (key : Text) (hc : s.contains key = true) : EndsKnown (s.getText env key none)
  observers : EndsKnown (s.observers env)
  validate : EndsKnown (s.validate env)

namespace IsTextual

theorem exists_text (h : s.IsTextual) (hv : s.value key ≠ .null) : ∃ t, s.value key = .text t :=
  h key (contains_of_value_ne_null hv)

theorem endsKnown_getText (h : s.IsTextual) (he : s.IsExpandable) (env : Environment)
    {d? : Option Value} (hd : ∀ d, d? = some d → d ≠ .null → EndsKnown (s.shownText env d)) :
    EndsKnown (s.getText env key d?) := by
  rw [getText_eq]
  refine endsKnown_readWith fun v hv hr => ?_
  rcases mem_of_raw hr hv with rfl | hs
  · obtain ⟨t, ht⟩ := h.exists_text hv
    rw [ht]
    exact endsKnown_interpolate_iff.mpr (he key t ht)
  · exact hd v hs hv

theorem endsKnown_get (h : s.IsTextual) (he : s.IsExpandable) (env : Environment) (x : Setting) :
    EndsKnown (s.get env x) := by
  have hr : EndsKnown (x.kind.read s env x.key x.default?) := by
    cases hk : x.kind with
    | applicationName | nonEmptyText | base64 | notNullText =>
      have ht : EndsKnown (s.getText env x.key x.default?) := by
        refine h.endsKnown_getText he env fun d hd _ => ?_
        obtain ⟨t, rfl⟩ := (Setting.default_admits hd).exists_text (by rw [hk]; rfl)
        obtain ⟨u, hu⟩ : ∃ u, s.interpolate env t = .ok u :=
          (exists_interpolate_default hd).imp fun _ hu => hu.1
        exact .of_exists ⟨u, hu⟩
      exact ht.bind fun _ _ => .ok _
    | positive | positiveLong | nonNegative | retryTimeout =>
      have hi : EndsKnown (s.getInteger x.key x.default?) :=
        endsKnown_readWith fun v _ _ => Value.endsKnown_toInteger x.key v
      exact hi.bind fun _ _ => .ok _
    | truth =>
      have hb : EndsKnown (s.getTruth x.key x.default?) := by
        refine endsKnown_readWith fun v hv hr => Value.endsKnown_toTruth x.key ?_
        -- only a number may be too long to be written out, and neither a text nor a default is
        rcases mem_of_raw hr hv with rfl | hs
        · obtain ⟨t, ht⟩ := h.exists_text hv
          rw [ht]
          rfl
        · have ha := Setting.default_admits hs
          rw [hk] at ha
          obtain ⟨b, rfl⟩ := ha
          rfl
      exact hb.bind fun _ _ => .ok _
  exact hr.bind fun v _ => Kind.endsKnown_check x.kind x.key v

theorem endsKnown_observers (h : s.IsTextual) (he : s.IsExpandable) (env : Environment) :
    EndsKnown (s.observers env) := by
  intro fault ho
  obtain ⟨key, hm, hd⟩ := exists_of_mapM_eq_error ho
  obtain ⟨t, ht⟩ := h key (mem_keys_iff.mp (List.mem_filter.mp hm).1)
  obtain ⟨u, hu⟩ : ∃ u, s.interpolate env t = .ok u := exists_expand_iff.mpr (he key t ht)
  have hg : s.getText env key none = .ok (some u) := by
    rw [getText_of_text ht, hu]
    rfl
  rw [observer_of_getText hg] at hd
  exact Observer.endsKnown_decode key u fault hd

theorem endsKnown_validate (h : s.IsTextual) (he : s.IsExpandable) (env : Environment) :
    EndsKnown (s.validate env) := by
  refine EndsKnown.forM fun r _ => ?_
  cases r with
  | setting x => exact EndsKnown.map_iff.mpr (h.endsKnown_get he env x)
  | connectString =>
    exact EndsKnown.map_iff.mpr ((h.endsKnown_get he env _).bind fun _ _ =>
      (h.endsKnown_get he env _).bind fun _ _ => .ok _)
  | metrics =>
    exact EndsKnown.map_iff.mpr ((h.endsKnown_get he env _).bind fun _ _ =>
      Base64.endsKnown_decode _)
  | observers => exact EndsKnown.map_iff.mpr (h.endsKnown_observers he env)

theorem failsKnown (h : s.IsTextual) (he : s.IsExpandable) (env : Environment) :
    s.FailsKnown env :=
  ⟨fun _ _ => h.endsKnown_getText he env nofun, h.endsKnown_observers he env,
    h.endsKnown_validate he env⟩

end IsTextual

theorem isExpandable_of_endsKnown
    (h : ∀ key, s.contains key = true → EndsKnown (s.getText env key none)) : s.IsExpandable := by
  intro key t ht
  have hc : s.contains key = true := contains_of_value_ne_null (by simp [ht])
  have hg := h key hc
  rw [getText_of_text ht, EndsKnown.map_iff] at hg
  exact endsKnown_interpolate_iff.mp hg

theorem IsTextual.failsKnown_iff (h : s.IsTextual) : s.FailsKnown env ↔ s.IsExpandable :=
  ⟨fun hf => isExpandable_of_endsKnown hf.getText, fun he => h.failsKnown he env⟩

/-- The configuration of a property file's text. -/
def ofProperties (t : Text) : Except Fault Store := do
  ofSources true [.entries ((← Properties.read t).entries.map fun e => (.text e.1, .text e.2))]

theorem isTextual_of_texts (m : OrderedMap Text) :
    ((empty true).addLayer (m.map Value.text)).IsTextual := by
  intro key hc
  rw [contains_eq_isSome, find?_addLayer, find?_empty, Option.none_or, OrderedMap.get?_map,
    Option.isSome_map] at hc
  obtain ⟨t, ht⟩ := Option.isSome_iff_exists.mp hc
  refine ⟨t, value_eq_of_find? ?_⟩
  rw [find?_addLayer, find?_empty, Option.none_or, OrderedMap.get?_map, ht]
  rfl

theorem ofProperties_of_read {m : OrderedMap Text} (h : Properties.read t = .ok m) :
    ofProperties t = .ok ((empty true).addLayer (m.map Value.text)) := by
  rw [ofProperties, h]
  exact ofSources_of_texts m

end Store

end LayeredConfig
