import LayeredConfig.Proofs.Role.Inspection
import LayeredConfig.Proofs.Store.References
import LayeredConfig.Proofs.Value.Simple

/-! When the check of a role comes to a verdict. A key that no layer holds never stands in the
way; a key that is held does if it cannot be read as a text, and null in a strict store is one of
the ways in which it cannot. -/

namespace LayeredConfig

namespace Store

variable {s : Store} {env : Environment} {key : Text}

def IsReadable (s : Store) (key : Text) : Prop :=
  (s.value key = .null ∧ s.isStrict = false) ∨
    (s.value key ≠ .null ∧
      ∃ t, (s.value key).settingText? = some t ∧ s.Expandable expansionDepth t)

def Answers (s : Store) (key : Text) : Prop := s.contains key = true → s.IsReadable key

theorem exists_getText_iff : (∃ t, s.getText env key none = .ok t) ↔ s.IsReadable key := by
  rw [getText_eq, IsReadable]
  by_cases hv : s.value key = .null
  · rw [readWith_of_null hv]
    cases hs : s.isStrict <;> simp [readDefault, hv]
  · have hh : ∀ t, (∃ u, s.interpolate env t = .ok u) ↔ s.Expandable expansionDepth t :=
      fun t => exists_expand_iff
    rw [readWith_of_ne_null hv, Except.exists_map_iff, shownText, Except.exists_bind_iff]
    simp only [Value.settingText_eq_ok_iff, hh, hv, false_and, false_or, ne_eq, not_false_eq_true,
      true_and]

end Store

theorem Value.isSome_literal?_of_plain? {v : Value} (h : v.plain?.isSome = true) :
    v.literal?.isSome = true := by
  cases v <;> exact h

namespace Role

open Inspection

namespace Inspection

variable {i : Inspection} {key : Text}

theorem exists_isSet_iff : (∃ b, i.isSet key = .ok b) ↔ i.store.Answers key := by
  have hr : (∃ t, i.store.getText i.env key none = .ok t) ↔ i.store.IsReadable key :=
    Store.exists_getText_iff
  rw [isSet, Store.Answers, ← hr]
  split_ifs with hc
  · rw [Except.exists_map_iff]
    simp only [hc, true_imp_iff]
  · simp [hc]

theorem exists_requireSet_iff :
    (∃ b, (i.requireSet key).result = .ok b) ↔ i.store.Answers key := by
  rw [requireSet, Logged.exists_bind_result_iff, ← exists_isSet_iff]
  refine exists_congr fun b => ?_
  cases b <;> simp [Logged.quiet, Logged.write, Logged.exists_bind_result_iff]

theorem exists_requireUnset_iff :
    (∃ b, (i.requireUnset key).result = .ok b) ↔ i.store.Answers key := by
  rw [requireUnset, Logged.exists_bind_result_iff, ← exists_isSet_iff]
  refine exists_congr fun b => ?_
  cases b <;> simp [Logged.quiet, Logged.write, Logged.exists_bind_result_iff]

theorem exists_allOf_iff {test : Text → Logged Bool} {keys : List Text} :
    (∃ b, (allOf test keys).result = .ok b) ↔ ∀ key ∈ keys, ∃ b, (test key).result = .ok b := by
  induction keys with
  | nil => simp [allOf]
  | cons key keys ih =>
    rw [allOf, Logged.exists_bind_result_iff, List.forall_mem_cons, ← ih]
    simp only [Logged.exists_bind_result_iff, Logged.pure_result]
    simp

theorem exists_checkClient_iff : (∃ b, i.checkClient.result = .ok b) ↔
    ∀ key ∈ clientKeys, i.store.Answers key := by
  rw [checkClient, exists_allOf_iff]
  simp only [exists_requireSet_iff]

theorem exists_checkAdmin_iff : (∃ b, i.checkAdmin.result = .ok b) ↔
    ∀ key ∈ clientKeys ++ [Setting.accumuloTable.key], i.store.Answers key := by
  rw [List.forall_mem_append, List.forall_mem_singleton, ← exists_checkClient_iff,
    ← exists_requireSet_iff, checkAdmin]
  simp only [Logged.exists_bind_result_iff, Logged.pure_result]
  simp

theorem exists_checkEmbedded_iff : (∃ b, i.checkEmbedded.result = .ok b) ↔
    ∀ key ∈ miniForbiddenKeys, i.store.Answers key := by
  have hh : (∃ b, (allOf i.requireUnset miniForbiddenKeys).result = .ok b) ↔
      ∀ key ∈ miniForbiddenKeys, i.store.Answers key := by
    rw [exists_allOf_iff]
    simp only [exists_requireUnset_iff]
  rw [checkEmbedded, Logged.exists_bind_result_iff, ← hh]
  refine exists_congr fun b => ?_
  cases b <;> simp [Logged.write, Logged.exists_bind_result_iff]

theorem exists_checkAttached_iff : (∃ b, i.checkAttached.result = .ok b) ↔
    ∀ key ∈ clientKeys ++ [Setting.accumuloTable.key], i.store.Answers key := by
  have hh : (∃ b, i.checkAdmin.result = .ok b) → ∃ b, i.checkClient.result = .ok b := by
    rw [exists_checkAdmin_iff, exists_checkClient_iff]
    exact fun h key hk => h key (List.mem_append_left _ hk)
  rw [← exists_checkAdmin_iff, checkAttached]
  simp only [Logged.exists_bind_result_iff, Logged.pure_result]
  constructor
  · rintro ⟨-, -, b, hb, -⟩
    exact ⟨b, hb⟩
  · rintro ⟨b, hb⟩
    obtain ⟨a, ha⟩ := hh ⟨b, hb⟩
    exact ⟨a, ha, b, hb, a, ha, a, ha, _, rfl⟩

/-! ### The role that may start a store of data of its own -/

def flag? (s : Store) : Option Bool :=
  match s.value flagKey with
  | .null => some true
  | v => (v.toTruth flagKey).toOption

theorem flag?_of_null {s : Store} (h : s.value flagKey = .null) : flag? s = some true := by
  rw [flag?, h]

theorem flag?_of_ne_null {s : Store} (h : s.value flagKey ≠ .null) :
    flag? s = ((s.value flagKey).toTruth flagKey).toOption := by
  simp only [flag?]

theorem get_flag_of_flag? {s : Store} {b : Bool} (h : flag? s = some b) (env : Environment) :
    s.get env .miniStartAccumulo = .ok (.bool b) ∧ (s.value flagKey).plain?.isSome = true := by
  by_cases hv : s.value flagKey = .null
  · rw [flag?_of_null hv] at h
    rw [get_flag_of_null hv, hv, ← Option.some.inj h]
    exact ⟨rfl, rfl⟩
  · rw [flag?_of_ne_null hv] at h
    rw [get_flag_of_ne_null hv]
    obtain ⟨-, ht⟩ | ⟨hp, ⟨a, ht⟩ | ht⟩ := Value.toTruth_cases flagKey (s.value flagKey)
    · simp [ht, Except.toOption] at h
    · rw [ht] at h ⊢
      rw [← Option.some.inj h]
      exact ⟨rfl, hp⟩
    · simp [ht, Except.toOption] at h

theorem exists_get_flag_eq_error {s : Store} (h : flag? s = none) (env : Environment) :
    ∃ fault, s.get env .miniStartAccumulo = .error fault := by
  have hv : s.value flagKey ≠ .null := fun hv => by simp [flag?_of_null hv] at h
  rw [flag?_of_ne_null hv] at h
  rw [get_flag_of_ne_null hv]
  cases ht : (s.value flagKey).toTruth flagKey with
  | error fault => exact ⟨fault, rfl⟩
  | ok b =>
    rw [ht] at h
    exact nomatch h

theorem exists_checkMini_of_flag? {b : Bool} (h : flag? i.store = some b) :
    (∃ c, i.checkMini.result = .ok c) ↔
      ∀ key ∈ if b then miniForbiddenKeys else clientKeys ++ [Setting.accumuloTable.key],
        i.store.Answers key := by
  rw [checkMini, (get_flag_of_flag? h i.env).1]
  cases b with
  | true => exact exists_checkEmbedded_iff
  | false => exact exists_checkAttached_iff

theorem exists_checkMini_of_flag?_eq_none (h : flag? i.store = none) :
    (∃ c, i.checkMini.result = .ok c) ↔ (i.store.value flagKey).plain?.isSome = true := by
  have hv : i.store.value flagKey ≠ .null := fun hv => by simp [flag?_of_null hv] at h
  have hg := get_flag_of_ne_null hv i.env
  rw [flag?_of_ne_null hv] at h
  obtain ⟨hp, ht⟩ | ⟨hp, ⟨a, ht⟩ | ht⟩ := Value.toTruth_cases flagKey (i.store.value flagKey)
  · rw [ht] at hg
    rw [checkMini, hg, hp]
    simp [Except.map, Logged.quiet, Fault.isConfiguration, Fault.category?]
  · simp [ht, Except.toOption] at h
  · rw [ht] at hg
    obtain ⟨shown, hs⟩ := Option.isSome_iff_exists.mp (Value.isSome_literal?_of_plain? hp)
    -- the report shows the literal of the flag, which it has since it has a text
    rw [checkMini_of_notTruth hg hs]
    simp [hp]

end Inspection

def examined (role : Role) (s : Store) : List Text :=
  match role with
  | client | oracle | worker => clientKeys
  | admin => clientKeys ++ [Setting.accumuloTable.key]
  | mini =>
    match flag? s with
    | some true => miniForbiddenKeys
    | some false => clientKeys ++ [Setting.accumuloTable.key]
    | none => []

/-- A check depends on the keys that it asks for, and on the flag where the role has one. -/
theorem Inspection.SeesOn.check {i' i : Inspection} {role : Role}
    (h : SeesOn (role.examined i.store) i' i)
    (hf : role = .mini →
      i'.store.get i'.env .miniStartAccumulo = i.store.get i.env .miniStartAccumulo) :
    role.check i' = role.check i := by
  cases role with
  | client | oracle | worker => exact h.checkClient fun _ hm => hm
  | admin => exact h.checkAdmin fun _ hm => hm
  | mini =>
    have hg := hf rfl
    change i'.checkMini = i.checkMini
    rw [examined] at h
    cases hq : flag? i.store with
    | none =>
      obtain ⟨fault, he⟩ := exists_get_flag_eq_error hq i.env
      rw [checkMini, checkMini, hg, he, h.channel]
    | some b =>
      rw [checkMini, checkMini, hg, (get_flag_of_flag? hq i.env).1]
      simp only [hq] at h
      cases b with
      | true => exact h.checkEmbedded fun _ hm => hm
      | false => exact h.checkAttached fun _ hm => hm

/-- A check comes to a verdict exactly if each key that it asks for is held by no layer or can be
read; the role with a flag also needs a flag that can be written out. -/
theorem exists_check_iff (role : Role) (i : Inspection) :
    (∃ b, (role.check i).result = .ok b) ↔
      (role = .mini → (i.store.value flagKey).plain?.isSome = true) ∧
        ∀ key ∈ role.examined i.store, i.store.Answers key := by
  cases role with
  | client | oracle | worker =>
    simp only [reduceCtorEq, false_imp_iff, true_and]
    exact exists_checkClient_iff
  | admin =>
    simp only [reduceCtorEq, false_imp_iff, true_and]
    exact exists_checkAdmin_iff
  | mini =>
    rw [check, examined]
    cases hf : flag? i.store with
    | none => simp [exists_checkMini_of_flag?_eq_none hf]
    | some b =>
      rw [exists_checkMini_of_flag? hf]
      cases b <;> simp [(get_flag_of_flag? hf i.env).2]

theorem check_client_null_user :
    ∃ s, Store.ofSources true [.entries [(.text Setting.accumuloUser.key, .null)]] = .ok s ∧
      (Role.client.check ⟨s, [], .configuration⟩).result =
        .error (.missingProperty Setting.accumuloUser.key) :=
  ⟨_, rfl, rfl⟩

end Role

end LayeredConfig
