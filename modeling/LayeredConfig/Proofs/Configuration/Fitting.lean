import LayeredConfig.Proofs.Configuration.Setters
import LayeredConfig.Proofs.Observer

/-! When a configuration made by setters is valid. What is held suits the getters as it is
written, so all that is left are the references in texts: what replaces one is first seen when
the text is read. -/

namespace LayeredConfig

theorem Setting.admits_text_iff {x : Setting} (hk : x.kind.isText = true)
    (hn : x ≠ .applicationName) (hm : x ≠ .metricsYamlBase64) {u : Text} :
    x.kind.Admits (.text u) ↔ (x.kind = .nonEmptyText → u ≠ []) := by
  have hc : x.kind = .nonEmptyText ∨ x.kind = .notNullText := by
    cases x <;> simp_all [kind, Kind.isText]
  rcases hc with hc | hc <;> simp [hc, Kind.Admits]

namespace Store

variable {p : Observer → Prop} {s : Store} {env : Environment} {key : Text}

theorem exists_observer_iff {t : Text} (h : s.value key = .text t) :
    (∃ o, s.observer env key = .ok o) ↔
      ∃ u o, s.interpolate env t = .ok u ∧ Observer.decode key u = .ok o := by
  rw [observer_of_text h]
  cases s.interpolate env t with
  | error fault => simp [bind, Except.bind]
  | ok u => simp [bind, Except.bind]

/-! ### What fits -/

/-- Whether the text of a setting, if it has one, can be read once its references are replaced,
and is not empty then where it must not be. -/
def SettingFits (s : Store) (env : Environment) (x : Setting) : Prop :=
  ∀ t, s.value x.key = .text t →
    ∃ u, s.interpolate env t = .ok u ∧ (x.kind = .nonEmptyText → u ≠ [])

/-- Whether the text of an observer, if there is one, is an observer once its references are
replaced. -/
def ObserverFits (s : Store) (env : Environment) (index : Nat) : Prop :=
  ∀ t, s.value (observerKey index) = .text t →
    ∃ u o, s.interpolate env t = .ok u ∧ Observer.decode (observerKey index) u = .ok o

structure FitsIn (s : Store) (env : Environment) : Prop where
  setting (x : Setting) (hx : x ≠ .applicationName) : s.SettingFits env x
  observer (index : Nat) : s.ObserverFits env index

namespace IsTyped

theorem entry (h : s.IsTyped p) (hv : s.value key ≠ .null) : TypedEntry p key (s.value key) :=
  h _ _ (find?_of_value rfl hv)

/-- An application name has no dot and no colon, so no reference in it stands for anything. -/
theorem interpolate_name (h : s.IsTyped p) {t : Text}
    (ht : ∀ c ∈ t, ApplicationName.flaw? c = none) : s.interpolate env t = .ok t := by
  have hno {c : CodePoint} (hc : ApplicationName.flaw? c ≠ none) : c ∉ t := fun hm => hc (ht c hm)
  refine expand_eq_self fun name hn expand => ?_
  have he : Text.dropPrefix? environmentMark name = none := by
    rw [Text.dropPrefix?, if_neg]
    intro hp
    have hm := (List.isPrefixOf_iff_prefix.mp hp).subset (by decide : .scalar ':' ∈ environmentMark)
    exact hno (by decide) (Piece.name_subset hn hm)
  refine resolve_of_null he (Classical.byContradiction fun hv => ?_)
  exact hno (by decide) (Piece.name_subset hn (h.entry hv).dot_mem)

theorem exists_get_iff_of_held (h : s.IsTyped p) {x : Setting} (hv : s.value x.key ≠ .null) :
    (∃ v, s.get env x = .ok v) ↔ (x ≠ .applicationName → s.SettingFits env x) := by
  obtain ⟨hm, ha⟩ := (h.entry hv).admits rfl
  have hr := raw_of_ne_null hv x.default?
  cases hk : x.kind.isText with
  | false =>
    refine iff_of_true ⟨_, get_eq_ok_iff.mpr ⟨read_of_raw hr ha hk, ha⟩⟩ fun _ t ht => ?_
    rw [ht] at ha
    cases hx : x.kind <;> simp [hx, Kind.Admits, Kind.isText] at ha hk
  | true =>
    obtain ⟨t, ht⟩ := ha.exists_text hk
    rw [ht] at hr ha
    rw [exists_get_iff hr hk]
    by_cases hn : x = .applicationName
    · subst hn
      obtain ⟨u, hu, -, hf⟩ := id ha
      cases hu
      exact iff_of_true ⟨t, h.interpolate_name hf, ha⟩ fun hne => absurd rfl hne
    · simp only [Setting.admits_text_iff hk hn hm]
      exact ⟨fun hh _ t' ht' => Value.text.inj (ht.symm.trans ht') ▸ hh, fun hh => hh hn t ht⟩

theorem exists_get_of_default {x : Setting} {d : Value} (hv : s.value x.key = .null)
    (hd : x.default? = some d) : ∃ v, s.get env x = .ok v := by
  have ha := Setting.default_admits hd
  have hr : s.raw x.key x.default? = .ok d := hd ▸ raw_of_null hv
  cases hk : x.kind.isText with
  | false => exact ⟨d, get_eq_ok_iff.mpr ⟨read_of_raw hr ha hk, ha⟩⟩
  | true =>
    obtain ⟨t, rfl⟩ := ha.exists_text hk
    exact (exists_get_iff hr hk).mpr (exists_interpolate_default hd)

/-- The metrics are never held, so they read as their default. -/
theorem exists_metrics (h : s.IsTyped p) : ∃ bs, s.metrics env = .ok bs := by
  have hv : s.value Setting.metricsYamlBase64.key = .null := Classical.byContradiction fun hv =>
    ((h.entry hv).admits rfl).1 rfl
  have hd : Setting.metricsYamlBase64.default? =
      some (.text (Base64.encode Setting.defaultMetrics)) := rfl
  have hg := get_of_isLiteral (hd ▸ raw_of_null hv) rfl (Setting.default_isLiteral hd nofun)
    (Setting.default_admits hd) env
  exact ⟨_, Except.bind_eq_ok_iff.mpr ⟨_, hg, Base64.decode_encode _⟩⟩

theorem exists_observers_iff (h : s.IsTyped p) : (∃ os, s.observers env = .ok os) ↔
    ∀ index, s.ObserverFits env index := by
  rw [observers, exists_mapM_eq_ok_iff]
  simp only [List.mem_filter, mem_keys_iff]
  constructor
  · intro hh index t ht
    rw [← exists_observer_iff ht]
    have hc : s.contains (observerKey index) = true :=
      contains_of_value_ne_null (by simp [ht])
    exact hh _ ⟨hc, isPrefixOf_observerKey index⟩
  · rintro hh key ⟨hc, hp⟩
    obtain ⟨v, hv⟩ : ∃ v, s.find? key = some v := by
      rwa [contains_eq_isSome, Option.isSome_iff_exists] at hc
    obtain ⟨index, o, rfl, rfl, -⟩ := (h key v hv).exists_observer hp
    have ht := value_eq_of_find? hv
    exact (exists_observer_iff ht).mpr (hh index _ ht)

/-- A typed store that has all required settings is valid exactly if what it holds fits. -/
theorem validate_iff_fitsIn (h : s.IsTyped p)
    (hr : ∀ x ∈ Setting.required, s.value x.key ≠ .null) :
    s.validate env = .ok () ↔ s.FitsIn env := by
  have hx (x : Setting) :
      (∃ v, s.get env x = .ok v) ↔ (x ≠ .applicationName → s.SettingFits env x) := by
    by_cases hv : s.value x.key = .null
    · have hd : x.default? ≠ none := fun hd => hr x (Setting.mem_required_iff.mpr hd) hv
      obtain ⟨d, hd⟩ := Option.ne_none_iff_exists'.mp hd
      exact iff_of_true (exists_get_of_default hv hd) fun _ t ht => nomatch hv.symm.trans ht
    · exact h.exists_get_iff_of_held hv
  simp only [validate_eq_ok_iff, hx, h.exists_observers_iff, h.exists_metrics, true_and]
  exact ⟨fun hh => ⟨hh.1, hh.2⟩, fun hh => ⟨hh.setting, hh.observer⟩⟩

theorem fitsIn (h : s.IsTyped fun o => o.encode.trim = o.encode)
    (hl : ∀ key t, s.value key = .text t → t.IsLiteral) : s.FitsIn env where
  setting x hn t ht := by
    have hv : s.value x.key ≠ .null := by rw [ht]; exact nofun
    obtain ⟨-, ha⟩ := (h.entry hv).admits rfl
    rw [ht] at ha
    exact ⟨t, interpolate_of_isLiteral (hl _ _ ht), fun hk => ha.ne_nil (by rw [hk]; exact nofun)⟩
  observer index t ht := by
    have hv : s.value (observerKey index) ≠ .null := by rw [ht]; exact nofun
    obtain ⟨_, o, -, ho, htrim⟩ := (h.entry hv).exists_observer (isPrefixOf_observerKey index)
    cases ht.symm.trans ho
    exact ⟨_, o, interpolate_of_isLiteral (hl _ _ ht), Observer.decode_encode_of_trim htrim _⟩

end IsTyped

/-! ### One layer -/

def ofSettings (es : List (Setting × Value)) : Store :=
  ⟨.ofList (es.map fun e => (e.1.key, e.2)), [], true⟩

variable {es : List (Setting × Value)}

theorem find?_ofSettings (es : List (Setting × Value)) (key : Text) :
    (ofSettings es).find? key = (ofSettings es).written.get? key := find?_of_single rfl key

theorem exists_of_mem_ofSettings {e : Text × Value} (h : e ∈ (ofSettings es).written.entries) :
    ∃ x v, (x, v) ∈ es ∧ e = (x.key, v) := by
  obtain ⟨⟨x, v⟩, hm, he⟩ := List.mem_map.mp (OrderedMap.mem_of_mem_ofList h)
  exact ⟨x, v, hm, he.symm⟩

theorem isNullFree_ofSettings (h : ∀ e ∈ es, e.1.kind.Admits e.2) : (ofSettings es).IsNullFree := by
  intro l hl e he
  cases List.mem_singleton.mp hl
  obtain ⟨x, v, hm, rfl⟩ := exists_of_mem_ofSettings he
  exact (h _ hm).ne_null

/-- It is valid if it holds what is required, each setting has a value that it admits, and there
are no references. -/
theorem validate_ofSettings (h : ∀ e ∈ es, e.1 ≠ .metricsYamlBase64 ∧ e.1.kind.Admits e.2)
    (hl : ∀ e ∈ es, ∀ t, e.2 = .text t → t.IsLiteral)
    (hr : ∀ x ∈ Setting.required, x ∈ es.map Prod.fst) (env : Environment) :
    (ofSettings es).validate env = .ok () := by
  have hmem {key v} (hv : (ofSettings es).find? key = some v) : ∃ x, (x, v) ∈ es ∧ key = x.key := by
    rw [find?_ofSettings] at hv
    obtain ⟨x, w, hm, he⟩ := exists_of_mem_ofSettings (OrderedMap.mem_of_get? hv)
    cases he
    exact ⟨x, hm, rfl⟩
  have ht : (ofSettings es).IsTyped fun o => o.encode.trim = o.encode := by
    intro key v hv
    obtain ⟨x, hm, rfl⟩ := hmem hv
    exact .setting (h _ hm).1 (h _ hm).2
  have hheld (x) (hx : x ∈ Setting.required) : (ofSettings es).value x.key ≠ .null := by
    have hk : x.key ∈ (ofSettings es).written.keys := by
      obtain ⟨e, hm, rfl⟩ := List.mem_map.mp (hr x hx)
      rw [ofSettings, OrderedMap.mem_keys_ofList, List.map_map]
      exact List.mem_map.mpr ⟨e, hm, rfl⟩
    cases hv : (ofSettings es).find? x.key with
    | none =>
      rw [find?_ofSettings, OrderedMap.get?_eq_none_iff] at hv
      exact absurd hk hv
    | some v =>
      rw [value_eq_of_find? hv]
      exact (ht _ _ hv).ne_null
  refine (ht.validate_iff_fitsIn hheld).mpr (ht.fitsIn fun key t hv => ?_)
  obtain ⟨x, hm, -⟩ := hmem (find?_of_value hv nofun)
  exact hl _ hm t rfl

theorem isTyped_empty (b : Bool) : (empty b).IsTyped p := fun _ _ h => nomatch h

/-- Setters and new observers that set all that is required make a configuration that is valid
exactly in the environments in which what it holds fits. Without references, and without blanks at
the ends of observers, it is valid in all of them. -/
theorem validate_after_typed_iff {cs : List Change} (hc : ∀ c ∈ cs, c.IsTyped)
    (hs : (empty true).Succeeds cs) (hr : ∀ x ∈ Setting.required, ∃ v, .set x v ∈ cs) :
    (∀ env, ((empty true).after cs).validate env = .ok () ↔ ((empty true).after cs).FitsIn env) ∧
      ((∀ c ∈ cs, c.IsTrimmed) →
        (∀ key t, ((empty true).after cs).value key = .text t → t.IsLiteral) →
        ∀ env, ((empty true).after cs).validate env = .ok ()) := by
  have hv (x) (hx : x ∈ Setting.required) : ((empty true).after cs).value x.key ≠ .null := by
    obtain ⟨v, hm⟩ := hr x hx
    exact value_after_of_mem hc hs hm
  have h : ((empty true).after cs).IsTyped fun _ => True :=
    (isTyped_empty true).after hc fun _ _ _ _ => trivial
  refine ⟨fun env => h.validate_iff_fitsIn hv, fun ht hl env => ?_⟩
  exact (h.validate_iff_fitsIn hv).mpr (((isTyped_empty true).after hc ht).fitsIn hl)

/-! ### A reference that does not fit -/

def watcher : Observer := ⟨"Watcher", .empty, by decide⟩

/-- A run that sets what is required, and more. -/
def connecting (user : Text) : List Change := [
  .setRollbackTime (.int 5) .minutes, .replaceObservers ⟨[.observer watcher], none⟩,
  .set .applicationName (.text "app"), .set .accumuloInstance (.text "store"),
  .set .accumuloPassword (.text []), .set .accumuloTable (.text "table"),
  .set .accumuloUser (.text user)]

theorem connecting_isTyped (user : Text) : ∀ c ∈ connecting user, c.IsTyped := by
  simp [connecting, Change.IsTyped]

theorem connecting_isTrimmed (user : Text) : ∀ c ∈ connecting user, c.IsTrimmed := by
  have hw : watcher.encode.trim = watcher.encode := by decide
  simp [connecting, Change.IsTrimmed, Change.Offers, hw]

theorem connecting_succeeds {user : Text} (h : user ≠ []) :
    (empty true).Succeeds (connecting user) := by
  have hset {x : Setting} {v : Value} (ha : x.kind.Admits v) (s : Store) :
      ((Change.set x v).run s).2 = .ok () := congrArg Prod.snd (Change.run_set ha s)
  refine ⟨rfl, rfl, hset ?_ _, hset ?_ _, hset ?_ _, hset ?_ _, hset ?_ _, trivial⟩
  · exact ⟨_, rfl, by decide, by decide⟩
  · exact ⟨_, rfl, by decide⟩
  · exact ⟨[], rfl⟩
  · exact ⟨_, rfl, by decide⟩
  · exact ⟨user, rfl, h⟩

theorem connecting_required (user : Text) :
    ∀ x ∈ Setting.required, ∃ v, .set x v ∈ connecting user := by
  simp [Setting.required, connecting]

theorem value_connecting {user : Text} (h : user ≠ []) :
    ((empty true).after (connecting user)).value Setting.accumuloUser.key = .text user := by
  have ha : Setting.accumuloUser.kind.Admits (.text user) := ⟨user, rfl, h⟩
  change ((Change.set .accumuloUser (.text user)).apply _).value _ = _
  rw [Change.apply, Change.run_set ha, value_put, if_pos rfl]

theorem validate_after_connecting_iff :
    ((∀ c ∈ connecting "fluo", c.IsTyped) ∧ (empty true).Succeeds (connecting "fluo") ∧
      (∀ x ∈ Setting.required, ∃ v, .set x v ∈ connecting "fluo") ∧
      ∀ c ∈ connecting "fluo", c.IsTrimmed) ∧
    (∀ env, ((empty true).after (connecting "fluo")).validate env = .ok () ↔
      ((empty true).after (connecting "fluo")).FitsIn env) ∧
    ((∀ key t, ((empty true).after (connecting "fluo")).value key = .text t → t.IsLiteral) →
      ∀ env, ((empty true).after (connecting "fluo")).validate env = .ok ()) := by
  have hs : (empty true).Succeeds (connecting "fluo") := connecting_succeeds (by decide)
  obtain ⟨hiff, hvalid⟩ :=
    validate_after_typed_iff (connecting_isTyped _) hs (connecting_required _)
  exact ⟨⟨connecting_isTyped _, hs, connecting_required _, connecting_isTrimmed _⟩, hiff,
    hvalid (connecting_isTrimmed _)⟩

def userReference : Text := "${env:U}"

theorem interpolate_userReference (s : Store) :
    s.interpolate [([0x55], [])] userReference = .ok [] := by
  have hl : Piece.leading? userReference = some (("env:U" : Text), []) := rfl
  have hp : Piece.ofText userReference = [.reference "env:U"] := by
    rw [Piece.ofText_of_leading? hl, Piece.ofText_nil]
  have hn : Text.dropPrefix? environmentMark "env:U" = some ("U" : Text) := rfl
  have hr (expand) : s.resolve [([0x55], [])] expand (.reference "env:U") = .ok [] := by
    rw [resolve_of_environment hn]
    rfl
  rw [interpolate, expansionDepth, expand, hp, List.mapM_cons, hr]
  rfl

/-- The user is not empty when it is set, but it is in an environment where its variable is. -/
theorem connecting_not_valid :
    ((∀ c ∈ connecting userReference, c.IsTyped) ∧ (∀ c ∈ connecting userReference, c.IsTrimmed) ∧
      (empty true).Succeeds (connecting userReference) ∧
      ∀ x ∈ Setting.required, ∃ v, .set x v ∈ connecting userReference) ∧
    ((empty true).after (connecting userReference)).validate [([0x55], [])] ≠ .ok () := by
  have hu : userReference ≠ [] := by decide
  refine ⟨⟨connecting_isTyped _, connecting_isTrimmed _, connecting_succeeds hu,
    connecting_required _⟩, fun hv => ?_⟩
  have hr := raw_of_ne_null (by rw [value_connecting hu]; exact nofun)
    Setting.accumuloUser.default?
  rw [value_connecting hu] at hr
  obtain ⟨u, hi, t, ht, hne⟩ :=
    (exists_get_iff hr rfl).mp ((validate_eq_ok_iff.mp hv).1 .accumuloUser)
  rw [interpolate_userReference] at hi
  cases hi
  cases ht
  exact hne rfl

end Store

end LayeredConfig
