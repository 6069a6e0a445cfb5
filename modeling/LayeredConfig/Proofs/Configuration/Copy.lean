import LayeredConfig.Proofs.Configuration.Presence
import LayeredConfig.Proofs.Role.Inspection
import LayeredConfig.Proofs.Store.Agreement

/-! A copy has all its keys in one layer. It agrees with what it was copied from, and whatever is
then done to both keeps them in agreement, so nothing that was shadowed ever shows again. -/

namespace LayeredConfig

namespace Store

/-! ### Observers -/

theorem find?_clearObservers (s : Store) (key : Text) :
    s.clearObservers.find? key = if isObserverIndex key then none else s.find? key := by
  rw [clearObservers, find?_foldl_erase]
  cases hc : s.contains key with
  | true =>
    have hk : key ∈ s.keys := mem_keys_iff.mpr hc
    simp [hk]
  | false =>
    have hk : key ∉ s.keys := fun hm => by simp [mem_keys_iff.mp hm] at hc
    have hf : s.find? key = none := by
      simpa [contains_eq_isSome] using hc
    simp [hk, hf]

@[simp] theorem isStrict_clearObservers (s : Store) :
    s.clearObservers.isStrict = s.isStrict := by
  rw [clearObservers]
  generalize s.keys.filter isObserverIndex = ks
  induction ks generalizing s with
  | nil => rfl
  | cons k ks ih => rw [List.foldl_cons, ih, isStrict_erase]

namespace Agrees

variable {t s : Store}

theorem clearObservers (h : t.Agrees s) : t.clearObservers.Agrees s.clearObservers where
  isStrict := by rw [isStrict_clearObservers, isStrict_clearObservers, h.isStrict]
  find? key := by rw [find?_clearObservers, find?_clearObservers, h.find?]

theorem putObservers (h : t.Agrees s) (index : Nat) (items : List Offered)
    (failure : Option Fault) :
    (t.putObservers index items failure).1.Agrees (s.putObservers index items failure).1 ∧
      (t.putObservers index items failure).2 = (s.putObservers index items failure).2 := by
  induction items generalizing t s index with
  | nil => cases failure <;> exact ⟨h, rfl⟩
  | cons item items ih =>
    cases item with
    | observer o => exact ih (h.put _ _) (index + 1)
    | other typeName => exact ⟨h, rfl⟩

/-! ### Changes -/

theorem attempt (h : t.Agrees s) {α : Type} (r : Except Fault α) {f g : α → Store}
    (hfg : ∀ a, (f a).Agrees (g a)) :
    (t.attempt (r >>= fun a => .ok (f a))).1.Agrees (s.attempt (r >>= fun a => .ok (g a))).1 ∧
      (t.attempt (r >>= fun a => .ok (f a))).2 = (s.attempt (r >>= fun a => .ok (g a))).2 := by
  cases r with
  | ok a => exact ⟨hfg a, rfl⟩
  | error fault => exact ⟨h, rfl⟩

/-- A change ends the same on both stores and keeps them in agreement. -/
theorem run (h : t.Agrees s) (c : Change) :
    (c.run t).1.Agrees (c.run s).1 ∧ (c.run t).2 = (c.run s).2 := by
  cases c with
  | add source =>
    have hb (s : Store) : s.add source = source.layer >>= fun l => .ok (s.addLayer l) := by
      rw [Store.add]
      cases source.layer <;> rfl
    rw [Change.run, Change.run, hb, hb]
    exact h.attempt source.layer h.addLayer
  | put key v => exact ⟨h.put key v, rfl⟩
  | erase key => exact ⟨h.erase key, rfl⟩
  | clear => exact ⟨h.clear, rfl⟩
  | putDefault key v => exact ⟨h.putDefault key v, rfl⟩
  | putDefaults => exact ⟨h.putAll _, rfl⟩
  | set x v => exact h.attempt (x.kind.check x.key v) (h.put x.key)
  | setRollbackTime duration unit =>
    have hp (n : Int) := h.attempt (Check.number .positive Setting.transactionRollbackTime.key
      (.int (unit.toMillis n))) fun n => h.put Setting.transactionRollbackTime.key (.int n)
    rw [Change.run, Change.run, setRollbackTime, setRollbackTime]
    cases Check.integer Setting.transactionRollbackTime.key duration with
    | error fault => exact ⟨h, rfl⟩
    | ok n => exact hp n
  | setMetrics stream =>
    exact h.attempt stream.read fun bs => h.put Setting.metricsYamlBase64.key _
  | putNumber rule key v => exact h.attempt (Check.number rule key v) fun n => h.put key (.int n)
  | putNonEmpty key v => exact h.attempt (Check.nonEmpty key v) fun u => h.put key (.text u)
  | replaceObservers offer => exact h.clearObservers.putObservers 0 offer.items offer.failure

theorem after (h : t.Agrees s) (cs : List Change) : (t.after cs).Agrees (s.after cs) := by
  induction cs generalizing t s with
  | nil => exact h
  | cons c cs ih => exact ih (h.run c).1

/-! ### Settings and roles -/

theorem get (h : t.Agrees s) (env : Environment) (x : Setting) : t.get env x = s.get env x := by
  have hr : x.kind.read t env x.key x.default? = x.kind.read s env x.key x.default? := by
    cases x.kind <;>
      simp only [Kind.read, h.getTextValue, h.getInteger, h.getTruth]
  rw [Store.get, Store.get, hr]

theorem check (h : t.Agrees s) (role : Role) (env : Environment) (channel : Channel) :
    role.check ⟨t, env, channel⟩ = role.check ⟨s, env, channel⟩ := by
  have hs : (⟨t, env, channel⟩ : Role.Inspection).SeesAs ⟨s, env, channel⟩ :=
    ⟨rfl, funext fun key => by
      rw [Role.Inspection.isSet, Role.Inspection.isSet, h.contains, h.getText]⟩
  by_cases hr : role = .mini
  · subst hr
    exact hs.checkMini (h.get env _)
  · exact hs.check_of_ne_mini hr

end Agrees

/-- Nothing that is read or checked key by key differs. -/
structure ReadsSame (t s : Store) : Prop where
  value (key : Text) : t.value key = s.value key
  contains (key : Text) : t.contains key = s.contains key
  getText (env : Environment) (key : Text) (d : Option Value) :
    t.getText env key d = s.getText env key d
  getInteger (key : Text) (d : Option Value) : t.getInteger key d = s.getInteger key d
  getTruth (key : Text) (d : Option Value) : t.getTruth key d = s.getTruth key d
  getNumber (rule : Rule) (key : Text) (d : Option Value) :
    t.getNumber rule key d = s.getNumber rule key d
  getNonEmpty (env : Environment) (key : Text) (d : Option Value) :
    t.getNonEmpty env key d = s.getNonEmpty env key d
  get (env : Environment) (x : Setting) : t.get env x = s.get env x
  connectString (env : Environment) : t.connectString env = s.connectString env
  metrics (env : Environment) : t.metrics env = s.metrics env
  check (role : Role) (env : Environment) (channel : Channel) :
    role.check ⟨t, env, channel⟩ = role.check ⟨s, env, channel⟩

theorem Agrees.readsSame {t s : Store} (h : t.Agrees s) : t.ReadsSame s where
  value := h.value
  contains := h.contains
  getText := h.getText
  getInteger := h.getInteger
  getTruth := h.getTruth
  getNumber := h.getNumber
  getNonEmpty := h.getNonEmpty
  get := h.get
  connectString env := by rw [Store.connectString, Store.connectString, h.get, h.get]
  metrics env := by rw [Store.metrics, Store.metrics, h.get]
  check := h.check

/-! ### Copies -/

theorem flattened_eq {s : Store} (h : s.IsFilled) : s.flattened = ⟨s.resolved, [], true⟩ := by
  have hn : ∀ e ∈ s.keys.map fun k => (k, s.value k), e.2 ≠ .null := by
    rw [List.forall_mem_map]
    exact fun k hk => ((inSync_iff.mpr h).mem_keys_iff k).mp hk
  rw [flattened, putAll_eq hn]
  rfl

theorem keys_flattened {s : Store} (h : s.IsFilled) : s.flattened.keys = s.keys := by
  rw [flattened_eq h, keys_of_single rfl, keys_resolved]

theorem flattened_agrees {s : Store} (hs : s.isStrict = true) (h : s.IsFilled) :
    s.flattened.Agrees s where
  isStrict := by rw [flattened_eq h, hs]
  find? key := by
    have hf : s.flattened.find? key = s.resolved.get? key := by
      rw [flattened_eq h, find?_of_single rfl]
    rw [hf, get?_resolved, contains_eq_isSome, Store.value]
    cases s.find? key <;> rfl

/-- A copy of a store without null lists the same keys with the same values, and after any changes
to both, all of which end the same, each read and check is the same on both. -/
theorem flattened_after_readsSame {s : Store} (hs : s.isStrict = true) (hn : s.IsNullFree) :
    s.flattened.keys = s.keys ∧ (∀ key, s.flattened.value key = s.value key) ∧
      ∀ cs : List Change, (s.flattened.after cs).ReadsSame (s.after cs) ∧
        ∀ c : Change, (c.run (s.flattened.after cs)).2 = (c.run (s.after cs)).2 := by
  have h := flattened_agrees hs hn.isFilled
  exact ⟨keys_flattened hn.isFilled, h.value,
    fun cs => ⟨(h.after cs).readsSame, fun c => ((h.after cs).run c).2⟩⟩

def shadowing : Store :=
  ⟨.ofList [("a", .int 1)], [.ofList [("a", .text "${b}"), ("b", .int 3)]], true⟩

theorem shadowing_flattened_readsSame :
    (shadowing.isStrict = true ∧ shadowing.IsNullFree) ∧
      shadowing.flattened.keys = shadowing.keys ∧
      (∀ key, shadowing.flattened.value key = shadowing.value key) ∧
      ∀ cs : List Change, (shadowing.flattened.after cs).ReadsSame (shadowing.after cs) ∧
        ∀ c : Change,
          (c.run (shadowing.flattened.after cs)).2 = (c.run (shadowing.after cs)).2 := by
  have hn : shadowing.IsNullFree := by
    intro l hl e he
    rcases List.mem_cons.mp hl with rfl | hl
    · cases List.mem_singleton.mp (OrderedMap.mem_of_mem_ofList he)
      exact nofun
    · cases List.mem_singleton.mp hl
      rcases List.mem_cons.mp (OrderedMap.mem_of_mem_ofList he) with rfl | he
      · exact nofun
      · cases List.mem_singleton.mp he
        exact nofun
  exact ⟨⟨rfl, hn⟩, flattened_after_readsSame rfl hn⟩

end Store

end LayeredConfig
