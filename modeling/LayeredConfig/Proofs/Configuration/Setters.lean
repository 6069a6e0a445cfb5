import LayeredConfig.Proofs.Configuration.Copy
import LayeredConfig.Proofs.Configuration.Observers
import LayeredConfig.Proofs.Configuration.Validation
import LayeredConfig.Proofs.Setting

/-! What the setters of settings and of observers lead to. They put only what the getters let out
again, so a configuration made by them is valid but for references: what replaces a reference is
first seen when the text is read. -/

namespace LayeredConfig

/-- The settings without a default. -/
def Setting.required : List Setting :=
  [applicationName, accumuloInstance, accumuloUser, accumuloPassword, accumuloTable]

theorem Setting.mem_required_iff {x : Setting} : x ∈ required ↔ x.default? = none := by
  cases x <;> simp [required, default?]

namespace Change

/-- A change by the setter of a setting, or by new observers. The metrics have setters of their
own. -/
def IsTyped : Change → Prop
  | set x _ => x ≠ .metricsYamlBase64
  | setRollbackTime _ _ => True
  | replaceObservers offer => offer.failure = none ∧ ∀ item ∈ offer.items, ∃ o, item = .observer o
  | _ => False

def Offers (c : Change) (o : Observer) : Prop :=
  match c with
  | replaceObservers offer => .observer o ∈ offer.items
  | _ => False

/-- A change by which only observers come whose texts have no blanks at their ends. -/
def IsTrimmed (c : Change) : Prop := ∀ o, c.Offers o → o.encode.trim = o.encode

theorem run_set {x : Setting} {v : Value} (h : x.kind.Admits v) (s : Store) :
    (set x v).run s = (s.put x.key v, .ok ()) := by
  rw [run, Store.set, Kind.check_eq_ok_iff.mpr ⟨rfl, h⟩]
  rfl

end Change

namespace Store

variable {p : Observer → Prop} {s : Store} {key : Text} {v : Value}

/-! ### Keys -/

theorem isObserverIndex_key (x : Setting) : isObserverIndex x.key = false := by
  rw [isObserverIndex, Text.dropPrefix?, Setting.observerSpace_not_prefix]
  rfl

/-- What setters put under a key, and new observers of some sort. -/
inductive TypedEntry (p : Observer → Prop) : Text → Value → Prop
  | setting {x : Setting} {v : Value} : x ≠ .metricsYamlBase64 → x.kind.Admits v →
      TypedEntry p x.key v
  | observer (index : Nat) {o : Observer} : p o →
      TypedEntry p (observerKey index) (.text o.encode)

namespace TypedEntry

theorem ne_null (h : TypedEntry p key v) : v ≠ .null := by
  cases h with
  | setting _ ha => exact ha.ne_null
  | observer index _ => exact nofun

theorem admits {x : Setting} (h : TypedEntry p key v) (hk : key = x.key) :
    x ≠ .metricsYamlBase64 ∧ x.kind.Admits v := by
  cases h with
  | setting hx ha => exact Setting.key_injective hk ▸ ⟨hx, ha⟩
  | observer index _ =>
    have hp := isPrefixOf_observerKey index
    rw [hk, Setting.observerSpace_not_prefix] at hp
    exact nomatch hp

theorem exists_observer (h : TypedEntry p key v)
    (hk : Setting.observerSpace.isPrefixOf key = true) :
    ∃ (index : Nat) (o : Observer),
      key = observerKey index ∧ v = .text o.encode ∧ p o := by
  cases h with
  | @setting x =>
    rw [Setting.observerSpace_not_prefix] at hk
    exact nomatch hk
  | @observer index o ho => exact ⟨index, o, rfl, rfl, ho⟩

theorem dot_mem (h : TypedEntry p key v) : .scalar '.' ∈ key := by
  cases h with
  | @setting x => exact x.dot_mem_key
  | observer index _ => exact List.mem_append_left _ (by decide)

end TypedEntry

/-! ### Changes -/

theorem find?_attempt_put {x : Setting} (hx : x ≠ .metricsYamlBase64) {r : Except Fault Store}
    (h : ∀ s', r = .ok s' → ∃ v, x.kind.Admits v ∧ s' = s.put x.key v) (key : Text) :
    (s.attempt r).1.find? key = s.find? key ∨
      ∃ v, TypedEntry p key v ∧ (s.attempt r).1.find? key = some v := by
  rcases attempt_fst_cases s r with he | hr
  · exact .inl (by rw [he])
  · obtain ⟨v, hv, he⟩ := h _ hr
    rw [he, find?_put_of_ne_null s x.key hv.ne_null]
    split_ifs with hk
    · exact .inr ⟨v, hk ▸ .setting hx hv, rfl⟩
    · exact .inl rfl

theorem find?_putObservers {items : List Offered}
    (h : ∀ o, .observer o ∈ items → p o) (s : Store) (index : Nat)
    (failure : Option Fault) (key : Text) :
    (s.putObservers index items failure).1.find? key = s.find? key ∨
      ∃ v, TypedEntry p key v ∧ (s.putObservers index items failure).1.find? key = some v := by
  induction items generalizing s index with
  | nil => cases failure <;> exact .inl rfl
  | cons item items ih =>
    cases item with
    | other typeName => exact .inl rfl
    | observer o =>
      rcases ih (fun o ho => h o (List.mem_cons_of_mem _ ho))
        (s.put (observerKey index) (.text o.encode)) (index + 1) with he | hv
      · have hp := find?_put_of_ne_null s (observerKey index) (v := .text o.encode) nofun key
        rw [putObservers, he, hp]
        split_ifs with hk
        · exact .inr ⟨_, hk ▸ .observer index (h o List.mem_cons_self), rfl⟩
        · exact .inl rfl
      · exact .inr hv

/-- All that a typed change does: it leaves what is held under a key, puts an entry that the
getters let out, or drops a numbered observer. -/
theorem find?_apply {c : Change} (hc : c.IsTyped) (hp : ∀ o, c.Offers o → p o) (s : Store)
    (key : Text) : (c.apply s).find? key = s.find? key ∨
      (∃ v, TypedEntry p key v ∧ (c.apply s).find? key = some v) ∨
      isObserverIndex key = true ∧ (c.apply s).find? key = none := by
  cases c with
  | set x v =>
    refine (find?_attempt_put hc fun s' hs => ?_) key |>.imp_right .inl
    obtain ⟨w, hw, he⟩ := exists_put_of_set hs
    exact ⟨w, (Kind.check_eq_ok_iff.mp hw).1 ▸ (Kind.check_eq_ok_iff.mp hw).2, he⟩
  | setRollbackTime duration unit =>
    refine (find?_attempt_put (x := .transactionRollbackTime) nofun fun s' hs => ?_) key
      |>.imp_right .inl
    obtain ⟨d, -, hd⟩ := Except.bind_eq_ok_iff.mp hs
    obtain ⟨n, hn, he⟩ := exists_put_of_putNumber hd
    exact ⟨.int n, ⟨n, rfl, (Check.number_eq_ok_iff.mp hn).2⟩, he⟩
  | replaceObservers offer =>
    rcases find?_putObservers hp s.clearObservers 0 offer.failure key with he | hv
    · rw [find?_clearObservers] at he
      split_ifs at he with hk
      · exact .inr (.inr ⟨hk, he⟩)
      · exact .inl he
    · exact .inr (.inl hv)
  | _ => exact hc.elim

/-- A store that holds only what setters and new observers of some sort put. -/
def IsTyped (s : Store) (p : Observer → Prop) : Prop :=
  ∀ key v, s.find? key = some v → TypedEntry p key v

theorem IsTyped.apply (h : s.IsTyped p) {c : Change} (hc : c.IsTyped)
    (hp : ∀ o, c.Offers o → p o) : (c.apply s).IsTyped p := by
  intro key v hv
  rcases find?_apply hc hp s key with he | ⟨w, hw, he⟩ | ⟨-, he⟩
  · exact h key v (he ▸ hv)
  · cases he.symm.trans hv
    exact hw
  · exact nomatch he.symm.trans hv

theorem value_apply_ne_null {c : Change} (hc : c.IsTyped) {x : Setting}
    (h : s.value x.key ≠ .null) : (c.apply s).value x.key ≠ .null := by
  have hf := find?_apply (p := fun _ => True) hc (fun _ _ => trivial) s x.key
  rcases hf with he | ⟨w, hw, he⟩ | ⟨hk, -⟩
  · rw [value, he]
    exact h
  · rw [value_eq_of_find? he]
    exact hw.ne_null
  · rw [isObserverIndex_key] at hk
    cases hk

/-! ### Runs -/

def Succeeds (s : Store) : List Change → Prop
  | [] => True
  | c :: cs => (c.run s).2 = .ok () ∧ (c.apply s).Succeeds cs

variable {cs : List Change}

theorem IsTyped.after (h : s.IsTyped p) (hc : ∀ c ∈ cs, c.IsTyped)
    (hp : ∀ c ∈ cs, ∀ o, c.Offers o → p o) : (s.after cs).IsTyped p := by
  induction cs generalizing s with
  | nil => exact h
  | cons c cs ih =>
    rw [List.forall_mem_cons] at hc hp
    exact ih (h.apply hc.1 hp.1) hc.2 hp.2

theorem value_after_ne_null (hc : ∀ c ∈ cs, c.IsTyped) {x : Setting}
    (h : s.value x.key ≠ .null) : (s.after cs).value x.key ≠ .null := by
  induction cs generalizing s with
  | nil => exact h
  | cons c cs ih =>
    rw [List.forall_mem_cons] at hc
    exact ih hc.2 (value_apply_ne_null hc.1 h)

theorem value_apply_set_ne_null {x : Setting} (h : ((Change.set x v).run s).2 = .ok ()) :
    ((Change.set x v).apply s).value x.key ≠ .null := by
  rw [Change.apply, Change.run] at *
  cases hr : s.set x v with
  | error fault =>
    rw [hr] at h
    cases h
  | ok s' =>
    obtain ⟨w, hw, he⟩ := exists_put_of_set hr
    obtain ⟨rfl, ha⟩ := Kind.check_eq_ok_iff.mp hw
    rw [attempt, he, value_put, if_pos rfl]
    exact ha.ne_null

theorem value_after_of_mem (hc : ∀ c ∈ cs, c.IsTyped) (hs : s.Succeeds cs) {x : Setting}
    (hm : .set x v ∈ cs) : (s.after cs).value x.key ≠ .null := by
  induction cs generalizing s with
  | nil => exact absurd hm List.not_mem_nil
  | cons c cs ih =>
    rw [List.forall_mem_cons] at hc
    rcases List.mem_cons.mp hm with rfl | hm
    · exact value_after_ne_null hc.2 (value_apply_set_ne_null hs.1)
    · exact ih hc.2 hs.2 hm

end Store

end LayeredConfig
