import Mathlib.Tactic.Push
import LayeredConfig.Proofs.Configuration.Reload
import LayeredConfig.Proofs.Role.Inspection

/-! A configuration saved as a property file and loaded again: every typed read ends alike, and
every role gets the same verdict. The checks log the same lines but in one case, where the flag is
a whole number that is no truth value and is shown as it was held. -/

namespace LayeredConfig

open Role Role.Inspection

structure Store.ReadsAlike (s' s : Store) (env : Environment) : Prop where
  keys : s'.keys = s.keys
  getText (key : Text) (d : Option Value) : s'.getText env key d = s.getText env key d
  getInteger (key : Text) (d : Option Value) : EndsAlike (s'.getInteger key d) (s.getInteger key d)
  getTruth (key : Text) (d : Option Value) : EndsAlike (s'.getTruth key d) (s.getTruth key d)
  getNumber (rule : Rule) (key : Text) (d : Option Value) :
    EndsAlike (s'.getNumber rule key d) (s.getNumber rule key d)
  getNonEmpty (key : Text) (d : Option Value) : s'.getNonEmpty env key d = s.getNonEmpty env key d
  get (x : Setting) : EndsAlike (s'.get env x) (s.get env x)
  connectString : s'.connectString env = s.connectString env
  metrics : s'.metrics env = s.metrics env
  observers : s'.observers env = s.observers env

/-- Inspections whose checks give the same verdicts. They log the same lines unless the flag is a
number other than one and zero; then each fails and reports the flag as it holds it. -/
structure Role.Inspection.ChecksAlike (i' i : Inspection) : Prop where
  verdict (role : Role) : (role.check i').result = (role.check i).result
  lines (role : Role) (hr : role ≠ .mini ∨ ∀ n, i.store.value flagKey = .int n → n = 1 ∨ n = 0) :
    (role.check i').lines = (role.check i).lines
  shown (n : Int) (hn : i.store.value flagKey = .int n) (h1 : n ≠ 1) (h0 : n ≠ 0) :
    Role.mini.check i = ⟨[flagLine i.channel (Numeral.ofInt n)], .ok false⟩ ∧
      Role.mini.check i' = ⟨[flagLine i.channel (Numeral.ofInt n).quoted], .ok false⟩

namespace Store.IsTextOf

variable {s' s : Store}

theorem readsAlike (h : s'.IsTextOf s) (env : Environment) : s'.ReadsAlike s env where
  keys := h.keys
  getText := h.getText env
  getInteger := h.getInteger
  getTruth := h.getTruth
  getNumber := h.getNumber
  getNonEmpty := h.getNonEmpty env
  get := h.get env
  connectString := h.connectString env
  metrics := h.metrics env
  observers := h.observers env

theorem seesAs (h : s'.IsTextOf s) (env : Environment) (channel : Channel) :
    (⟨s', env, channel⟩ : Inspection).SeesAs ⟨s, env, channel⟩ where
  channel := rfl
  isSet := by
    funext key
    rw [isSet, isSet, h.contains, h.getText]

theorem get_flag (h : s'.IsTextOf s) (env : Environment)
    (hf : ∀ n, s.value flagKey = .int n → n = 1 ∨ n = 0) :
    s'.get env .miniStartAccumulo = s.get env .miniStartAccumulo := by
  rcases h.value flagKey with ⟨hv, hv'⟩ | ⟨hv, hv'⟩
  · rw [get_flag_of_null hv, get_flag_of_null hv']
  · rw [get_flag_of_ne_null hv.ne_null, get_flag_of_ne_null (by simp [hv']), hv']
    generalize s.value flagKey = v at hv hf
    cases hv with
    | text t => rfl
    | bool b => cases b <;> rfl
    | @int n hn =>
      rw [Value.rendered, Value.toTruth_int hn _ (.inl rfl), Value.toTruth_int hn _ (.inr rfl)]
      rcases hf n rfl with rfl | rfl <;> rfl

theorem get_flag_of_int (h : s'.IsTextOf s) (env : Environment) {n : Int}
    (hn : s.value flagKey = .int n) (h1 : n ≠ 1) (h0 : n ≠ 0) :
    s.get env .miniStartAccumulo = .error (.notTruth flagKey (.int n)) ∧
      s'.get env .miniStartAccumulo = .error (.notTruth flagKey (.text (Numeral.ofInt n))) ∧
      Numeral.ofInt? n = some (Numeral.ofInt n) := by
  rcases h.value flagKey with ⟨hv, -⟩ | ⟨hv, hv'⟩
  · exact nomatch hn.symm.trans hv
  · rw [get_flag_of_ne_null hv.ne_null, get_flag_of_ne_null (by simp [hv']), hv']
    rw [hn] at hv ⊢
    cases hv with
    | int hd =>
      rw [Value.rendered, Value.toTruth_int hd _ (.inl rfl), Value.toTruth_int hd _ (.inr rfl),
        if_neg h1, if_neg h0, if_neg h1, if_neg h0]
      exact ⟨rfl, rfl, Numeral.ofInt?_eq_some hd⟩

theorem checksAlike (h : s'.IsTextOf s) (env : Environment) (channel : Channel) :
    (⟨s', env, channel⟩ : Inspection).ChecksAlike ⟨s, env, channel⟩ := by
  have hs := h.seesAs env channel
  have hm (hf : ∀ n, s.value flagKey = .int n → n = 1 ∨ n = 0) :
      Role.mini.check ⟨s', env, channel⟩ = Role.mini.check ⟨s, env, channel⟩ :=
    hs.checkMini (h.get_flag env hf)
  have hi {n : Int} (hn : s.value flagKey = .int n) (h1 : n ≠ 1) (h0 : n ≠ 0) :
      Role.mini.check ⟨s, env, channel⟩ =
          ⟨[flagLine channel (Numeral.ofInt n)], .ok false⟩ ∧
        Role.mini.check ⟨s', env, channel⟩ =
          ⟨[flagLine channel (Numeral.ofInt n).quoted], .ok false⟩ := by
    obtain ⟨hf, hf', hd⟩ := h.get_flag_of_int env hn h1 h0
    exact ⟨checkMini_of_notTruth hf hd, checkMini_of_notTruth hf' rfl⟩
  constructor
  case verdict =>
    intro role
    by_cases hr : role = .mini
    · subst hr
      by_cases hf : ∀ n, s.value flagKey = .int n → n = 1 ∨ n = 0
      · rw [hm hf]
      · push Not at hf
        obtain ⟨n, hn, h1, h0⟩ := hf
        rw [(hi hn h1 h0).1, (hi hn h1 h0).2]
    · rw [hs.check_of_ne_mini hr]
  case lines =>
    intro role hr
    by_cases hrole : role = .mini
    · subst hrole
      rw [hm (hr.resolve_left fun hh => hh rfl)]
    · rw [hs.check_of_ne_mini hrole]
  case shown =>
    exact fun n hn h1 h0 => hi hn h1 h0

end Store.IsTextOf

namespace Store

/-- A store of simple values without breakers can be saved and loaded, and what is loaded reads
and is checked like what was saved. -/
theorem exists_reloaded_alike {s : Store} (hs : s.isStrict = true)
    (hv : ∀ key ∈ s.keys, (s.value key).IsSimple)
    (hb : ∀ key ∈ s.keys, Properties.Unbroken key ∧ Properties.Unbroken (s.value key).rendered) :
    ∃ s', s.reloaded = .ok s' ∧ ∀ env, s'.ReadsAlike s env ∧
      ∀ channel, (⟨s', env, channel⟩ : Inspection).ChecksAlike ⟨s, env, channel⟩ := by
  obtain ⟨s', hr, ht⟩ := exists_reloaded hs hv hb
  exact ⟨s', hr, fun env => ⟨ht.readsAlike env, ht.checksAlike env⟩⟩

def numbered : Store := (empty true).addLayer (.ofList [(flagKey, .int 2)])

theorem numbered_isSimple : ∀ key ∈ numbered.keys, (numbered.value key).IsSimple := by
  have hk : numbered.keys = [flagKey] := rfl
  rw [hk, List.forall_mem_singleton]
  exact .int_of_le (k := 1) (by decide) (by decide)

theorem numbered_unbroken : ∀ key ∈ numbered.keys,
    Properties.Unbroken key ∧ Properties.Unbroken (numbered.value key).rendered := by
  have hk : numbered.keys = [flagKey] := rfl
  rw [hk, List.forall_mem_singleton]
  exact ⟨by decide, Properties.unbroken_of_not_blank Numeral.isBlank_of_mem_ofInt⟩

theorem numbered_reloaded_alike :
    (numbered.isStrict = true ∧ (∀ key ∈ numbered.keys, (numbered.value key).IsSimple) ∧
      ∀ key ∈ numbered.keys,
        Properties.Unbroken key ∧ Properties.Unbroken (numbered.value key).rendered) ∧
    ∃ s', numbered.reloaded = .ok s' ∧ ∀ env, s'.ReadsAlike numbered env ∧
      ∀ channel, (⟨s', env, channel⟩ : Inspection).ChecksAlike ⟨numbered, env, channel⟩ :=
  ⟨⟨rfl, numbered_isSimple, numbered_unbroken⟩,
    exists_reloaded_alike rfl numbered_isSimple numbered_unbroken⟩

theorem numbered_reloaded_lines_ne :
    ofSources true [.entries [(.text flagKey, .int 2)]] = .ok numbered ∧
      (∀ key ∈ numbered.keys, (numbered.value key).IsSimple) ∧
      (∀ key ∈ numbered.keys,
        Properties.Unbroken key ∧ Properties.Unbroken (numbered.value key).rendered) ∧
      ∃ s', numbered.reloaded = .ok s' ∧
        (Role.mini.check ⟨s', [], .configuration⟩).lines ≠
          (Role.mini.check ⟨numbered, [], .configuration⟩).lines := by
  refine ⟨rfl, numbered_isSimple, numbered_unbroken, ?_⟩
  obtain ⟨s', hr, ht⟩ := exists_reloaded rfl numbered_isSimple numbered_unbroken
  obtain ⟨h, h'⟩ := (ht.checksAlike [] .configuration).shown 2 rfl (by decide) (by decide)
  refine ⟨s', hr, fun hl => ?_⟩
  rw [h, h'] at hl
  exact Numeral.quoted_ne_ofInt _ _ (flagLine_injective (List.cons.inj hl).1)

end Store

end LayeredConfig
