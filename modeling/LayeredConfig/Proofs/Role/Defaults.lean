import LayeredConfig.Proofs.Configuration.Accessors
import LayeredConfig.Proofs.Configuration.Defaults
import LayeredConfig.Proofs.Role.Validated
import LayeredConfig.Proofs.Role.Verdict

/-! Roles and defaults that are written down. No role requires a setting that has a default, so
the checks do not see them, but for the role that may start a store of data of its own: it refuses
two settings that have one. -/

namespace LayeredConfig

namespace Role

/-- The keys of a connection that have a default. -/
def zookeeperKeys : List Text := [Setting.accumuloZookeepers, .instanceZookeepers].map Setting.key

theorem miniForbiddenKeys_eq : miniForbiddenKeys =
    [Setting.accumuloUser, .accumuloPassword, .accumuloInstance].map Setting.key ++
      zookeeperKeys := rfl

theorem mem_examined_cases {role : Role} {s : Store} {key : Text} (h : key ∈ role.examined s) :
    (∃ x : Setting, x.key = key ∧ x.default? = none) ∨
      role = .mini ∧ Inspection.flag? s = some true ∧ key ∈ zookeeperKeys := by
  have hn : ∀ xs : List Setting, (∀ x ∈ xs, x.default? = none) → key ∈ xs.map Setting.key →
      ∃ x : Setting, x.key = key ∧ x.default? = none := by
    intro xs hxs hk
    obtain ⟨x, hx, he⟩ := List.mem_map.mp hk
    exact ⟨x, he, hxs x hx⟩
  have hc (hk : key ∈ clientKeys) : ∃ x : Setting, x.key = key ∧ x.default? = none :=
    hn _ (by simp [Setting.default?]) hk
  have ha (hk : key ∈ clientKeys ++ [Setting.accumuloTable.key]) :
      ∃ x : Setting, x.key = key ∧ x.default? = none := by
    rcases List.mem_append.mp hk with hk | hk
    · exact hc hk
    · exact ⟨.accumuloTable, (List.mem_singleton.mp hk).symm, rfl⟩
  cases role with
  | client | oracle | worker => exact .inl (hc h)
  | admin => exact .inl (ha h)
  | mini =>
    rw [examined] at h
    cases hf : Inspection.flag? s with
    | none => simp [hf] at h
    | some b =>
      cases b with
      | false =>
        simp only [hf] at h
        exact .inl (ha h)
      | true =>
        simp only [hf] at h
        rw [miniForbiddenKeys_eq] at h
        rcases List.mem_append.mp h with hk | hk
        · exact .inl (hn _ (by simp [Setting.default?]) hk)
        · exact .inr ⟨rfl, rfl, hk⟩

/-- What a check asks for is not left to a default, but for the keys of the connection. -/
theorem not_isLeft_of_mem_examined {role : Role} {s : Store} {key : Text}
    (hk : key ∈ role.examined s)
    (hz : role = .mini → Inspection.flag? s = some true → key ∈ zookeeperKeys →
      s.value key ≠ .null) : ¬ s.IsLeft key := by
  rintro ⟨hv, x, d, rfl, hd⟩
  rcases mem_examined_cases hk with ⟨y, hy, hn⟩ | ⟨hr, hf, hm⟩
  · rw [Setting.key_injective hy, hd] at hn
    exact nomatch hn
  · exact hz hr hf hm hv

namespace Inspection

variable {i : Inspection} {key : Text}

/-- The inspection of the same store with every default written down. -/
def withDefaults (i : Inspection) : Inspection := { i with store := i.store.withDefaults }

theorem get_flag_withDefaults (i : Inspection) :
    i.withDefaults.store.get i.withDefaults.env .miniStartAccumulo =
      i.store.get i.env .miniStartAccumulo :=
  Store.get_withDefaults (x := .miniStartAccumulo) (fun h => nomatch h) i.env

theorem isSet_withDefaults (hl : ¬ i.store.IsLeft key) (ha : i.store.IsApart (i.store.value key)) :
    i.withDefaults.isSet key = i.isSet key := by
  have hc : i.store.withDefaults.contains key = i.store.contains key := by
    rw [Store.contains_eq_isSome, Store.contains_eq_isSome,
      Store.find?_withDefaults_of_not_isLeft hl]
  have ht := Store.getText_withDefaults (Store.fallsBack_of_not_isLeft hl none) ha nofun i.env
  simp only [isSet, withDefaults, hc, ht]

theorem check_withDefaults {role : Role}
    (hz : role = .mini → flag? i.store = some true →
      ∀ key ∈ zookeeperKeys, i.store.value key ≠ .null)
    (ha : ∀ key ∈ role.examined i.store, i.store.IsApart (i.store.value key)) :
    role.check i.withDefaults = role.check i := by
  have hl : ∀ key ∈ role.examined i.store, ¬ i.store.IsLeft key :=
    fun key hk => not_isLeft_of_mem_examined hk fun hr hf => hz hr hf key
  have hs : SeesOn (role.examined i.store) i.withDefaults i :=
    ⟨rfl, fun key hk => isSet_withDefaults (hl key hk) (ha key hk)⟩
  exact hs.check fun _ => get_flag_withDefaults i

/-! ### Where a store of data is started along -/

theorem isSet_withDefaults_of_null {x : Setting}
    (hx : x ∈ [Setting.accumuloZookeepers, .instanceZookeepers])
    (hv : i.store.value x.key = .null) : i.withDefaults.isSet x.key = .ok true := by
  have hd : ∀ x ∈ [Setting.accumuloZookeepers, .instanceZookeepers],
      ∃ t, x.default? = some (.text t) ∧ t ≠ [] ∧ x ≠ .miniDataDir := by
    simp [Setting.default?]
  obtain ⟨t, ht, hne, hm⟩ := hd x hx
  have hl := Setting.default_isLiteral ht hm
  have hw := Store.value_eq_of_find? (Store.find?_withDefaults_of_default hv ht)
  have hg : i.store.withDefaults.getText i.env x.key none = .ok (some t) := by
    have hn : i.store.withDefaults.value x.key ≠ .null := by
      simp [hw]
    have hi : i.store.withDefaults.shownText i.env (.text t) = .ok t :=
      Store.interpolate_of_isLiteral hl
    rw [Store.getText_eq, Store.readWith_of_ne_null hn, hw, hi]
    rfl
  rw [isSet_of_getText (i := i.withDefaults) hg]
  simp [hne]

theorem requireUnset_result_eq (i : Inspection) (key : Text) :
    (i.requireUnset key).result = (i.isSet key).map (!·) := by
  cases hs : i.isSet key with
  | ok b => exact requireUnset_result hs
  | error fault =>
    rw [requireUnset, hs]
    rfl

theorem mini_result_of_flag (h : i.store.get i.env .miniStartAccumulo = .ok (.bool true)) :
    (Role.mini.check i).result = (allOf i.requireUnset miniForbiddenKeys).result := by
  change i.checkMini.result = _
  rw [checkMini, h]
  change i.checkEmbedded.result = _
  rw [checkEmbedded, Logged.bind_result]
  cases (allOf i.requireUnset miniForbiddenKeys).result with
  | error fault => rfl
  | ok b => cases b <;> rfl

/-- Tests that fail alike let a pass over the keys fail alike. -/
theorem allOf_map_congr {test' test : Text → Logged Bool} {keys : List Text}
    (h : ∀ key ∈ keys, (test' key).result.map (fun _ => false) =
      (test key).result.map fun _ => false) :
    (allOf test' keys).result.map (fun _ => false) =
      (allOf test keys).result.map fun _ => false := by
  have hm (test : Text → Logged Bool) (key : Text) (keys : List Text) :
      (allOf test (key :: keys)).result.map (fun _ => false) =
        (test key).result.map (fun _ => false) >>= fun _ =>
          (allOf test keys).result.map fun _ => false := by
    simp only [allOf, Logged.bind_result, Logged.pure_result]
    cases (test key).result with
    | error fault => rfl
    | ok here => cases (allOf test keys).result <;> rfl
  induction keys with
  | nil => rfl
  | cons key keys ih =>
    obtain ⟨hk, hks⟩ := List.forall_mem_cons.mp h
    rw [hm, hm, hk, ih hks]

theorem allOf_eq_false {test : Text → Logged Bool} {keys : List Text} {b : Bool} (hk : key ∈ keys)
    (h : (test key).result = .ok false) (hb : (allOf test keys).result = .ok b) : b = false := by
  induction keys generalizing b with
  | nil => exact absurd hk List.not_mem_nil
  | cons k keys ih =>
    obtain ⟨here, hh, hr⟩ := Logged.bind_result_eq_ok_iff.mp hb
    obtain ⟨there, ht, hr⟩ := Logged.bind_result_eq_ok_iff.mp hr
    rw [← Except.ok.inj hr]
    rcases List.mem_cons.mp hk with rfl | hk
    · cases h.symm.trans hh
      rfl
    · rw [ih hk ht, Bool.and_false]

/-- A connection that only the defaults describe counts as set once they are written down, so the
role is refused where its check came to any verdict. -/
theorem mini_withDefaults (hf : flag? i.store = some true)
    (ha : ∀ key ∈ miniForbiddenKeys, i.store.IsApart (i.store.value key))
    (hc : ∀ key ∈ zookeeperKeys, i.store.value key = .null → i.store.contains key = false)
    (hz : ∃ key ∈ zookeeperKeys, i.store.value key = .null) :
    (Role.mini.check i.withDefaults).result = (Role.mini.check i).result.map fun _ => false := by
  have hg := (get_flag_of_flag? hf i.env).1
  have hg' := (get_flag_withDefaults i).trans hg
  have hl : ∀ key ∈ zookeeperKeys, i.store.value key = .null →
      i.withDefaults.isSet key = .ok true ∧ i.isSet key = .ok false := by
    intro key hk hv
    have hi : i.isSet key = .ok false := by simp [isSet, hc key hk hv]
    obtain ⟨x, hx, rfl⟩ := List.mem_map.mp hk
    exact ⟨isSet_withDefaults_of_null hx hv, hi⟩
  -- both fail alike, and the one with defaults meets a key that is set
  have hm : (allOf i.withDefaults.requireUnset miniForbiddenKeys).result.map (fun _ => false) =
      (allOf i.requireUnset miniForbiddenKeys).result.map fun _ => false := by
    refine allOf_map_congr fun key hk => ?_
    rw [requireUnset_result_eq, requireUnset_result_eq]
    by_cases hv : key ∈ zookeeperKeys ∧ i.store.value key = .null
    · rw [(hl key hv.1 hv.2).1, (hl key hv.1 hv.2).2]
      rfl
    · have hm : key ∈ Role.mini.examined i.store := by simpa only [examined, hf] using hk
      have hn := not_isLeft_of_mem_examined hm fun _ _ hkz hvz => hv ⟨hkz, hvz⟩
      rw [isSet_withDefaults hn (ha key hk)]
  obtain ⟨key, hk, hv⟩ := hz
  have hu : (i.withDefaults.requireUnset key).result = .ok false := by
    rw [requireUnset_result_eq, (hl key hk hv).1]
    rfl
  rw [mini_result_of_flag hg, mini_result_of_flag hg', ← hm]
  cases hr : (allOf i.withDefaults.requireUnset miniForbiddenKeys).result with
  | error fault => rfl
  | ok b =>
    have hm : key ∈ miniForbiddenKeys := miniForbiddenKeys_eq ▸ List.mem_append_right _ hk
    exact congrArg Except.ok (allOf_eq_false hm hu hr)

end Inspection

end Role

open Role Role.Inspection

/-- What is read and checked is the same where defaults are written down, unless a text that is
read leads to a key that was left to its default. The role that starts a store of data along is
refused if the connection was left to its defaults. -/
structure Store.DefaultsUnseen (s' s : Store) (env : Environment) : Prop where
  get (x : Setting) (h : x.kind.isText = true → s.IsApart (s.value x.key)) :
    s'.get env x = s.get env x
  connectString
    (h : ∀ x ∈ [Setting.instanceZookeepers, .applicationName], s.IsApart (s.value x.key)) :
    s'.connectString env = s.connectString env
  metrics (h : s.IsApart (s.value Setting.metricsYamlBase64.key)) : s'.metrics env = s.metrics env
  observers (h : ∀ key ∈ s.keys, Setting.observerSpace.isPrefixOf key = true →
      s.IsApart (s.value key)) : s'.observers env = s.observers env
  getNumber (rule : Rule) (key : Text) (d? : Option Value) (h : s.FallsBack key d?) :
    s'.getNumber rule key d? = s.getNumber rule key d?
  getNonEmpty (key : Text) (d? : Option Value) (h : s.FallsBack key d?)
    (hv : s.IsApart (s.value key)) (hd : ∀ d, d? = some d → s.IsApart d) :
    s'.getNonEmpty env key d? = s.getNonEmpty env key d?
  check (role : Role) (channel : Channel)
    (hz : role = .mini → flag? s = some true → ∀ key ∈ zookeeperKeys, s.value key ≠ .null)
    (ha : ∀ key ∈ role.examined s, s.IsApart (s.value key)) :
    role.check ⟨s', env, channel⟩ = role.check ⟨s, env, channel⟩
  mini (channel : Channel) (hf : flag? s = some true)
    (ha : ∀ key ∈ miniForbiddenKeys, s.IsApart (s.value key))
    (hc : ∀ key ∈ zookeeperKeys, s.value key = .null → s.contains key = false)
    (hz : ∃ key ∈ zookeeperKeys, s.value key = .null) :
    (Role.mini.check ⟨s', env, channel⟩).result =
      (Role.mini.check ⟨s, env, channel⟩).result.map fun _ => false

theorem Store.withDefaults_unseen (s : Store) (env : Environment) :
    s.withDefaults.DefaultsUnseen s env where
  get _ h := get_withDefaults h env
  connectString h := connectString_withDefaults h env
  metrics h := metrics_withDefaults h env
  observers h := observers_withDefaults h env
  getNumber rule _ _ h := getNumber_withDefaults h rule
  getNonEmpty _ _ h hv hd := getNonEmpty_withDefaults h hv hd env
  check _ channel hz ha := check_withDefaults (i := ⟨s, env, channel⟩) hz ha
  mini channel hf ha hc hz := mini_withDefaults (i := ⟨s, env, channel⟩) hf ha hc hz

/-- A user that is written as a reference to a key with a value. -/
def lending : Store :=
  ((Store.empty true).put "app.user" (.text "root")).put Setting.accumuloUser.key
    (.text (Piece.reference "app.user").written)

theorem value_lending (key : Text) : lending.value key =
    if Setting.accumuloUser.key = key then .text (Piece.reference "app.user").written
    else if "app.user" = key then .text "root" else .null := by
  rw [lending, Store.value_put, Store.value_put]
  rfl

theorem isApart_lending : lending.IsApart (lending.value Setting.accumuloUser.key) := by
  have hv : lending.value "app.user" = .text "root" := by
    rw [value_lending, if_neg (by decide), if_pos rfl]
  rw [value_lending, if_pos rfl]
  refine Store.isApart_reference (by decide) ?_ ?_
  · rintro ⟨hn, -⟩
    exact nomatch hv.symm.trans hn
  · intro t ht
    rw [hv] at ht
    obtain rfl := Option.some.inj ht
    exact Text.isLiteral_of_not_mem (by decide)

/-- A user that is read through a reference is the same with the defaults, and so is the client's
check of it. A store without any key is refused where it passed. -/
theorem defaults_unseen_lending :
    lending.withDefaults.get [] .accumuloUser = lending.get [] .accumuloUser ∧
      Role.client.check ⟨lending.withDefaults, [], .configuration⟩ =
        Role.client.check ⟨lending, [], .configuration⟩ ∧
      (Role.mini.check ⟨(Store.empty true).withDefaults, [], .configuration⟩).result =
        (Role.mini.check ⟨.empty true, [], .configuration⟩).result.map fun _ => false := by
  have ha : ∀ key ∈ clientKeys, lending.IsApart (lending.value key) := by
    intro key hk
    by_cases hu : Setting.accumuloUser.key = key
    · subst hu
      exact isApart_lending
    · have hn : ∀ key ∈ clientKeys, ("app.user" : Text) ≠ key := by decide
      rw [value_lending, if_neg hu, if_neg (hn key hk)]
      exact Store.isApart_null _
  exact ⟨(Store.withDefaults_unseen lending []).get .accumuloUser fun _ => isApart_lending,
    (Store.withDefaults_unseen lending []).check .client .configuration nofun ha,
    (Store.withDefaults_unseen (.empty true) []).mini .configuration rfl
      (fun _ _ => Store.isApart_null _) (fun _ _ _ => rfl) ⟨_, List.mem_cons_self, rfl⟩⟩

/-- A user that is written as a reference to a key with a default. -/
def borrowedUser : Text := (Piece.reference Setting.accumuloZookeepers.key).written

def borrowing : Store := (Store.empty true).put Setting.accumuloUser.key (.text borrowedUser)

theorem value_borrowing : borrowing.value Setting.accumuloUser.key = .text borrowedUser ∧
    borrowing.value Setting.accumuloZookeepers.key = .null := by
  have hk : Setting.accumuloUser.key ≠ Setting.accumuloZookeepers.key :=
    fun he => Setting.noConfusion (Setting.key_injective he)
  rw [borrowing, Store.value_put, Store.value_put, if_pos rfl, if_neg hk]
  exact ⟨rfl, rfl⟩

theorem ofText_borrowedUser :
    Piece.ofText borrowedUser = [.reference Setting.accumuloZookeepers.key] :=
  Piece.ofText_reference (by decide)

theorem zookeepers_not_mark : ¬ environmentMark <+: Setting.accumuloZookeepers.key := by decide

theorem get_borrowing : borrowing.get [] .accumuloUser = .ok (.text borrowedUser) := by
  obtain ⟨hv, hz⟩ := value_borrowing
  have hn : ∀ name, .reference name ∈ Piece.ofText borrowedUser → ¬ borrowing.Resolves [] name := by
    simpa [ofText_borrowedUser] using Store.not_resolves_of_null zookeepers_not_mark hz []
  refine (Accessor.get_eq_text_iff (a := .setting .accumuloUser) hv ⟨_, rfl, by decide⟩ hn).mpr ?_
  rw [ofText_borrowedUser]
  intro named hm
  exact absurd ⟨named, Piece.reference.inj (List.mem_singleton.mp hm)⟩ zookeepers_not_mark

theorem get_borrowing_withDefaults :
    borrowing.withDefaults.get [] .accumuloUser = .ok (.text "localhost") := by
  have hv : borrowing.withDefaults.value Setting.accumuloUser.key = .text borrowedUser := by
    rw [Store.value_withDefaults_of_not_isLeft, value_borrowing.1]
    exact fun hl => nomatch value_borrowing.1.symm.trans hl.1
  have hz : borrowing.withDefaults.value Setting.accumuloZookeepers.key = .text "localhost" :=
    Store.value_eq_of_find? (Store.find?_withDefaults_of_default value_borrowing.2 rfl)
  have hi : borrowing.withDefaults.interpolate [] borrowedUser = .ok "localhost" :=
    Store.interpolate_reference (by decide) zookeepers_not_mark hz
      (Text.isLiteral_of_not_mem (by decide))
  have hg : (Accessor.setting .accumuloUser).get borrowing.withDefaults [] = _ :=
    Accessor.get_of_text hv ⟨_, rfl, by decide⟩
  rw [hi] at hg
  exact hg

theorem withDefaults_not_alike :
    (Role.mini.check ⟨.empty true, [], .configuration⟩).result = .ok true ∧
      (Role.mini.check ⟨(Store.empty true).withDefaults, [], .configuration⟩).result = .ok false ∧
      borrowing.get [] .accumuloUser = .ok (.text borrowedUser) ∧
      borrowing.withDefaults.get [] .accumuloUser = .ok (.text "localhost") := by
  have hm : (Role.mini.check ⟨.empty true, [], .configuration⟩).result = .ok true := rfl
  have hf := mini_withDefaults (i := ⟨.empty true, [], .configuration⟩) rfl
    (fun _ _ => Store.isApart_null _) (fun _ _ _ => rfl) ⟨_, List.mem_cons_self, rfl⟩
  rw [hm] at hf
  exact ⟨hm, hf, get_borrowing, get_borrowing_withDefaults⟩

end LayeredConfig
