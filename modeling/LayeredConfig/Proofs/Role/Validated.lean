import LayeredConfig.Proofs.Configuration.Fitting
import LayeredConfig.Proofs.Role.Inspection

/-! What the checks of roles say of a valid configuration. All that a role requires is then set,
but for a password that may be empty, so the verdicts come down to the password and, for the role
that may start a store of data of its own, to the flag. -/

namespace LayeredConfig

namespace Store

variable {s : Store} {env : Environment} {key : Text}

theorem value_ne_null_of_getText {t : Text} (h : s.getText env key none = .ok (some t)) :
    s.value key ≠ .null := by
  intro hv
  rw [getText_eq, readWith_of_null hv, readDefault] at h
  cases hs : s.isStrict <;> simp [hs] at h

theorem getText_eq_of_value (h : s.value key ≠ .null) (d d' : Option Value) :
    s.getText env key d = s.getText env key d' := by
  rw [getText_eq, getText_eq, readWith_of_ne_null h, readWith_of_ne_null h]

end Store

namespace Role.Inspection

variable {i : Inspection} {key : Text}

theorem isSet_of_getText {t : Text} (h : i.store.getText i.env key none = .ok (some t)) :
    i.isSet key = .ok (!t.isEmpty) := by
  rw [isSet, if_pos (Store.contains_of_value_ne_null (Store.value_ne_null_of_getText h)), h]
  rfl

theorem requireSet_result {b : Bool} (h : i.isSet key = .ok b) :
    (i.requireSet key).result = .ok b := by
  rw [requireSet, h, Logged.bind_ok rfl]
  cases b <;> rfl

theorem requireUnset_result {b : Bool} (h : i.isSet key = .ok b) :
    (i.requireUnset key).result = .ok !b := by
  rw [requireUnset, h, Logged.bind_ok rfl]
  cases b <;> rfl

theorem allOf_result {test : Text → Logged Bool} {b : Text → Bool} {keys : List Text}
    (h : ∀ key ∈ keys, (test key).result = .ok (b key)) :
    (allOf test keys).result = .ok (keys.all b) := by
  induction keys with
  | nil => rfl
  | cons key keys ih =>
    obtain ⟨hk, hks⟩ := List.forall_mem_cons.mp h
    rw [allOf, Logged.bind_ok hk, Logged.bind_ok (ih hks), List.all_cons]
    rfl

/-! ### Valid configurations -/

variable {s : Store} {env : Environment} {password : Text}

/-- What a valid configuration reads as for a setting of text that has no default. -/
theorem exists_isSet_of_required {x : Setting} (hk : x.kind.isText = true)
    (hd : x.default? = none) (h : ∃ v, s.get env x = .ok v) (channel : Channel) :
    ∃ t, s.get env x = .ok (.text t) ∧ x.kind.Admits (.text t) ∧
      (⟨s, env, channel⟩ : Inspection).isSet x.key = .ok (!t.isEmpty) := by
  obtain ⟨v, hv⟩ := h
  have ha := (Store.get_eq_ok_iff.mp hv).2
  obtain ⟨t, rfl⟩ := ha.exists_text hk
  have ht := Store.getText_of_get hv hk
  rw [hd] at ht
  exact ⟨t, hv, ha, isSet_of_getText ht⟩

/-- The required settings other than the password do not read as empty. -/
theorem isSet_of_required {x : Setting} (hx : x ∈ Setting.required) (hp : x ≠ .accumuloPassword)
    (h : ∃ v, s.get env x = .ok v) (channel : Channel) :
    (⟨s, env, channel⟩ : Inspection).isSet x.key = .ok true := by
  have hk : ∀ x ∈ Setting.required, x ≠ .accumuloPassword →
      x.kind.isText = true ∧ x.kind ≠ .notNullText := by decide
  obtain ⟨ht, hn⟩ := hk x hx hp
  obtain ⟨t, -, ha, hs⟩ := exists_isSet_of_required ht (Setting.mem_required_iff.mp hx) h channel
  rw [hs]
  simp [ha.ne_nil hn]

/-- A setting of text that has a default is set or not, but asking for it does not fail. -/
theorem exists_isSet_of_get (hf : s.IsFilled) {x : Setting} (hk : x.kind.isText = true)
    (h : ∃ v, s.get env x = .ok v) (channel : Channel) :
    ∃ b, (⟨s, env, channel⟩ : Inspection).isSet x.key = .ok b := by
  obtain ⟨v, hv⟩ := h
  obtain ⟨t, rfl⟩ := (Store.get_eq_ok_iff.mp hv).2.exists_text hk
  have ht := Store.getText_of_get hv hk
  cases hc : s.contains x.key with
  | false => exact ⟨false, by rw [isSet]; simp [hc]⟩
  | true =>
    have hn := ((Store.inSync_iff.mpr hf).contains_iff x.key).mp hc
    rw [Store.getText_eq_of_value hn x.default? none] at ht
    exact ⟨_, isSet_of_getText ht⟩

def passwordKey : Text := Setting.accumuloPassword.key

theorem checkClient_result {p : Bool} (hp : i.isSet passwordKey = .ok p)
    (h : ∀ key ∈ clientKeys, key ≠ passwordKey → i.isSet key = .ok true) :
    i.checkClient.result = .ok p := by
  have hb : ∀ key ∈ clientKeys,
      (i.requireSet key).result = .ok (if key = passwordKey then p else true) := by
    intro key hk
    by_cases he : key = passwordKey
    · rw [if_pos he, he]
      exact requireSet_result hp
    · rw [if_neg he]
      exact requireSet_result (h key hk he)
  have ha : clientKeys.all (fun key => if key = passwordKey then p else true) = p := by
    cases p with
    | true => simp
    | false =>
      have hm : passwordKey ∈ clientKeys := List.mem_map_of_mem (by decide)
      exact List.all_eq_false.mpr ⟨passwordKey, hm, by simp⟩
  rw [checkClient, allOf_result hb, ha]

theorem checkAdmin_result {p : Bool} (hc : i.checkClient.result = .ok p)
    (ht : i.isSet Setting.accumuloTable.key = .ok true) : i.checkAdmin.result = .ok p := by
  rw [checkAdmin, Logged.bind_ok hc, Logged.bind_ok (requireSet_result ht), Bool.and_true]
  rfl

theorem checkAttached_result {p : Bool} (hc : i.checkClient.result = .ok p)
    (ha : i.checkAdmin.result = .ok p) : i.checkAttached.result = .ok p := by
  rw [checkAttached, Logged.bind_ok hc, Logged.bind_ok ha, Logged.bind_ok hc, Logged.bind_ok hc]
  cases p <;> rfl

theorem checkEmbedded_result (h : ∀ key ∈ miniForbiddenKeys, ∃ b, i.isSet key = .ok b)
    (hk : key ∈ miniForbiddenKeys) (hs : i.isSet key = .ok true) :
    i.checkEmbedded.result = .ok false := by
  let b (key : Text) : Bool := !((i.isSet key).toOption.getD false)
  have hb : ∀ key ∈ miniForbiddenKeys, (i.requireUnset key).result = .ok (b key) := by
    intro key hk
    obtain ⟨c, hc⟩ := h key hk
    rw [requireUnset_result hc]
    simp only [b, hc]
    rfl
  have ha : miniForbiddenKeys.all b = false := by
    refine List.all_eq_false.mpr ⟨key, hk, ?_⟩
    simp only [b, hs]
    decide
  rw [checkEmbedded, Logged.bind_ok (allOf_result hb), ha]
  rfl

variable (hx : ∀ x, ∃ v, s.get env x = .ok v)

include hx in
theorem checkClient_of_valid (hp : s.get env .accumuloPassword = .ok (.text password))
    (channel : Channel) :
    (⟨s, env, channel⟩ : Inspection).checkClient.result = .ok (!password.isEmpty) := by
  refine checkClient_result ?_ ?_
  · obtain ⟨t, ht, -, hs⟩ :=
      exists_isSet_of_required (x := .accumuloPassword) rfl rfl ⟨_, hp⟩ channel
    cases hp.symm.trans ht
    exact hs
  · have hm : ∀ x ∈ [Setting.applicationName, .accumuloUser, .accumuloPassword, .accumuloInstance],
        x ∈ Setting.required := by decide
    simp only [clientKeys, List.forall_mem_map]
    intro x hc hne
    exact isSet_of_required (hm x hc) (fun he => hne (congrArg Setting.key he)) (hx x) channel

include hx in
theorem checkEmbedded_of_valid (hf : s.IsFilled) (channel : Channel) :
    (⟨s, env, channel⟩ : Inspection).checkEmbedded.result = .ok false := by
  have hu := isSet_of_required (x := .accumuloUser) (by decide) nofun (hx _) channel
  refine checkEmbedded_result ?_ List.mem_cons_self hu
  simp only [miniForbiddenKeys, List.forall_mem_map]
  intro x hm
  have hk : x.kind.isText = true := by
    revert x
    decide
  exact exists_isSet_of_get hf hk (hx x) channel

end Role.Inspection

namespace Store

open Role.Inspection

/-- In a valid configuration every role gets the same verdict, which is whether the password is
not empty; but where a store of data is started along, its role is refused. -/
theorem exists_check_of_validate {s : Store} {env : Environment} (hn : s.IsNullFree)
    (hv : s.validate env = .ok ()) :
    ∃ password embedded, s.get env .accumuloPassword = .ok (.text password) ∧
      s.get env .miniStartAccumulo = .ok (.bool embedded) ∧ ∀ channel,
        (∀ role ≠ .mini, (Role.check role ⟨s, env, channel⟩).result = .ok (!password.isEmpty)) ∧
        (Role.mini.check ⟨s, env, channel⟩).result =
          .ok (if embedded then false else !password.isEmpty) := by
  have hx := (validate_eq_ok_iff.mp hv).1
  obtain ⟨password, hp, -⟩ :=
    exists_isSet_of_required (x := .accumuloPassword) rfl rfl (hx _) .configuration
  obtain ⟨v, hb⟩ := hx .miniStartAccumulo
  obtain ⟨embedded, rfl⟩ := (get_eq_ok_iff.mp hb).2
  refine ⟨password, embedded, hp, hb, fun channel => ?_⟩
  have hclient := checkClient_of_valid hx hp channel
  have hadmin := checkAdmin_result hclient
    (isSet_of_required (x := .accumuloTable) (by decide) nofun (hx _) channel)
  constructor
  · intro role hr
    cases role with
    | client | oracle | worker => exact hclient
    | admin => exact hadmin
    | mini => exact absurd rfl hr
  · change (⟨s, env, channel⟩ : Role.Inspection).checkMini.result = _
    rw [checkMini, hb]
    cases embedded with
    | false => exact checkAttached_result hclient hadmin
    | true => exact checkEmbedded_of_valid hx hn.isFilled channel

def connected : List (Setting × Value) := [
  (.applicationName, .text "app"), (.accumuloInstance, .text "store"),
  (.accumuloUser, .text "fluo"), (.accumuloPassword, .text "secret"),
  (.accumuloTable, .text "table")]

theorem connected_admits :
    ∀ e ∈ connected, e.1 ≠ .metricsYamlBase64 ∧ e.1.kind.Admits e.2 := by
  have hn : ∀ c ∈ ("app" : Text), ApplicationName.flaw? c = none := by decide
  simp [connected, Setting.kind, Kind.Admits, hn]

theorem connected_isLiteral : ∀ e ∈ connected, ∀ t, e.2 = .text t → t.IsLiteral := by
  have hl : ∀ e ∈ connected, .scalar '$' ∉ asText e.2 := by decide
  rintro ⟨x, v⟩ hm t rfl
  exact Text.isLiteral_of_not_mem (hl _ hm)

theorem connected_check : (ofSettings connected).IsNullFree ∧
    (ofSettings connected).validate [] = .ok () ∧
    ∃ password embedded, (ofSettings connected).get [] .accumuloPassword = .ok (.text password) ∧
      (ofSettings connected).get [] .miniStartAccumulo = .ok (.bool embedded) ∧ ∀ channel,
        (∀ role ≠ .mini, (Role.check role ⟨ofSettings connected, [], channel⟩).result =
          .ok (!password.isEmpty)) ∧
        (Role.mini.check ⟨ofSettings connected, [], channel⟩).result =
          .ok (if embedded then false else !password.isEmpty) := by
  have hn : (ofSettings connected).IsNullFree :=
    isNullFree_ofSettings fun e he => (connected_admits e he).2
  have hv := validate_ofSettings connected_admits connected_isLiteral (by decide) []
  exact ⟨hn, hv, exists_check_of_validate hn hv⟩

end Store

end LayeredConfig
