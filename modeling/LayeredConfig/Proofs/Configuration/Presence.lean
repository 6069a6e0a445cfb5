import LayeredConfig.Proofs.Configuration.Run
import LayeredConfig.Proofs.Loader
import LayeredConfig.Proofs.Store.Contents

/-! Presence: a key is held exactly if a read finds a value. Null can only be held where a source
brings it under a key that no layer holds; every other change keeps the two in step. -/

namespace LayeredConfig

namespace Store

/-- What holds, lists or counts a key agrees with whether the key has a value. -/
structure InSync (s : Store) : Prop where
  contains_iff (key : Text) : s.contains key = true ↔ s.value key ≠ .null
  mem_keys_iff (key : Text) : key ∈ s.keys ↔ s.value key ≠ .null
  mem_resolved_iff (key : Text) : key ∈ s.resolved.keys ↔ s.value key ≠ .null
  counted : ∃ ks : List Text, ks.Nodup ∧ (∀ key, key ∈ ks ↔ s.value key ≠ .null) ∧
    s.size = ks.length

/-- No key is held with null where it is looked up. -/
def IsFilled (s : Store) : Prop := ∀ key, s.find? key ≠ some .null

theorem inSync_iff {s : Store} : s.InSync ↔ s.IsFilled := by
  have hh (key : Text) : (s.contains key = true ↔ s.value key ≠ .null) ↔
      s.find? key ≠ some .null := by
    rw [contains_eq_isSome, value]
    cases s.find? key <;> simp
  constructor
  · exact fun h key => (hh key).mp (h.contains_iff key)
  · intro h
    have hc (key : Text) := (hh key).mpr (h key)
    have hk (key : Text) : key ∈ s.keys ↔ s.value key ≠ .null := mem_keys_iff.trans (hc key)
    exact ⟨hc, hk, fun key => by rw [keys_resolved, hk], s.keys, s.nodup_keys, hk, rfl⟩

def IsNullFree (s : Store) : Prop := ∀ l ∈ s.layers, ∀ e ∈ l.entries, e.2 ≠ .null

theorem isNullFree_of_isNull {s : Store}
    (h : ∀ l ∈ s.layers, ∀ e ∈ l.entries, e.2.isNull = false) : s.IsNullFree := by
  intro l hl e he hv
  have hn := h l hl e he
  rw [hv] at hn
  exact nomatch hn

theorem IsNullFree.isFilled {s : Store} (h : s.IsNullFree) : s.IsFilled := by
  intro key hk
  obtain ⟨l, hl, hv⟩ := exists_of_findIn_eq_some hk
  exact h l hl _ (OrderedMap.mem_of_get? hv) rfl

namespace IsFilled

variable {s : Store}

theorem empty (b : Bool) : (Store.empty b).IsFilled := by
  intro key
  rw [find?_empty]
  exact nofun

theorem erase (h : s.IsFilled) (k : Text) : (s.erase k).IsFilled := by
  intro key
  rw [find?_erase]
  split_ifs
  · exact nofun
  · exact h key

theorem put (h : s.IsFilled) (k : Text) (v : Value) : (s.put k v).IsFilled := by
  intro key
  rw [find?_put]
  split_ifs with hk hn
  · exact nofun
  · rintro hv
    exact hn (Option.some.inj hv ▸ rfl)
  · exact h key

theorem clear (s : Store) : s.clear.IsFilled := by
  intro key
  rw [find?_clear]
  exact nofun

theorem putDefault (h : s.IsFilled) (k : Text) (v : Value) : (s.putDefault k v).IsFilled := by
  rw [Store.putDefault]
  split_ifs
  · exact h.put k v
  · exact h

theorem putAll (h : s.IsFilled) (es : List (Text × Value)) : (s.putAll es).IsFilled := by
  induction es generalizing s with
  | nil => exact h
  | cons e es ih => exact ih (h.put e.1 e.2)

theorem flattened (s : Store) : s.flattened.IsFilled := (empty true).putAll _

theorem clearObservers (h : s.IsFilled) : s.clearObservers.IsFilled := by
  rw [Store.clearObservers]
  generalize s.keys.filter isObserverIndex = ks
  induction ks generalizing s with
  | nil => exact h
  | cons k ks ih => exact ih (h.erase k)

theorem putObservers (h : s.IsFilled) (index : Nat) (items : List Offered)
    (failure : Option Fault) : (s.putObservers index items failure).1.IsFilled := by
  induction items generalizing s index with
  | nil => cases failure <;> exact h
  | cons item items ih =>
    cases item with
    | observer o => exact ih (h.put _ _) (index + 1)
    | other typeName => exact h

theorem replaceObservers (h : s.IsFilled) (offer : Offer) : (s.replaceObservers offer).1.IsFilled :=
  h.clearObservers.putObservers 0 offer.items offer.failure

theorem addLayer_iff (h : s.IsFilled) (l : Layer) :
    (s.addLayer l).IsFilled ↔ ∀ key, l.get? key = some .null → s.contains key = true := by
  refine forall_congr' fun key => ?_
  have hk := h key
  rw [find?_addLayer, contains_eq_isSome]
  cases hf : s.find? key with
  | none => simp
  | some v =>
    rw [hf] at hk
    simpa using hk

theorem attempt (h : s.IsFilled) {r : Except Fault Store} (hr : ∀ s', r = .ok s' → s'.IsFilled) :
    (s.attempt r).1.IsFilled := by
  rcases s.attempt_fst_cases r with hs | hs
  · rw [hs]
    exact h
  · exact hr _ hs

end IsFilled

end Store

/-! ### Clean runs -/

def Change.IsClean (c : Change) (s : Store) : Prop :=
  match c with
  | add source => ∀ l, source.layer = .ok l → ∀ key, l.get? key = some .null → s.contains key = true
  | _ => True

theorem Change.isFilled_apply_iff {s : Store} (h : s.IsFilled) (c : Change) :
    (c.apply s).IsFilled ↔ c.IsClean s := by
  cases c with
  | add source =>
    rw [apply, run, IsClean]
    cases hl : source.layer with
    | error fault =>
      simpa [Store.add, hl, Except.map, Store.attempt] using h
    | ok l =>
      simpa [Store.add, hl, Except.map, Store.attempt] using h.addLayer_iff l
  | put key v => exact iff_true_intro (h.put key v)
  | erase key => exact iff_true_intro (h.erase key)
  | clear => exact iff_true_intro (.clear s)
  | putDefault key v => exact iff_true_intro (h.putDefault key v)
  | putDefaults => exact iff_true_intro (h.putAll _)
  | set x v =>
    refine iff_true_intro (h.attempt fun s' hs => ?_)
    obtain ⟨w, -, rfl⟩ := Store.exists_put_of_set hs
    exact h.put _ w
  | setRollbackTime duration unit =>
    refine iff_true_intro (h.attempt fun s' hs => ?_)
    obtain ⟨n, rfl⟩ := Store.exists_put_of_setRollbackTime hs
    exact h.put _ _
  | setMetrics stream =>
    refine iff_true_intro (h.attempt fun s' hs => ?_)
    obtain ⟨bs, -, rfl⟩ := Store.exists_put_of_setMetrics hs
    exact h.put _ _
  | putNumber rule key v =>
    refine iff_true_intro (h.attempt fun s' hs => ?_)
    obtain ⟨n, -, rfl⟩ := Store.exists_put_of_putNumber hs
    exact h.put key _
  | putNonEmpty key v =>
    refine iff_true_intro (h.attempt fun s' hs => ?_)
    obtain ⟨t, -, rfl⟩ := Store.exists_put_of_putNonEmpty hs
    exact h.put key _
  | replaceObservers offer => exact iff_true_intro (h.replaceObservers offer)

namespace Store

def IsCleanRun (s : Store) : List Change → Prop
  | [] => True
  | c :: cs => c.IsClean s ∧ (c.apply s).IsCleanRun cs

theorem isFilled_after_iff {s : Store} (h : s.IsFilled) (cs : List Change) :
    (∀ n, (s.after (cs.take n)).IsFilled) ↔ s.IsCleanRun cs := by
  induction cs generalizing s with
  | nil => simpa [IsCleanRun] using h
  | cons c cs ih =>
    have hh : (∀ n, (s.after ((c :: cs).take n)).IsFilled) ↔
        ∀ n, ((c.apply s).after (cs.take n)).IsFilled := by
      constructor
      · intro hn n
        simpa using hn (n + 1)
      · intro hn n
        cases n with
        | zero => simpa using h
        | succ n => simpa using hn n
    rw [hh, IsCleanRun, ← c.isFilled_apply_iff h]
    constructor
    · intro hn
      have hc : (c.apply s).IsFilled := hn 0
      exact ⟨hc, (ih hc).mp hn⟩
    · rintro ⟨hc, hn⟩
      exact (ih hc).mpr hn

/-! Sources only add below what is there, so what a key shows stays through all of them. -/

theorem find?_of_foldlM_add {s s' : Store} {sources : List Source} {key : Text} {v : Value}
    (h : sources.foldlM add s = .ok s') (hv : s.find? key = some v) : s'.find? key = some v := by
  induction sources generalizing s with
  | nil =>
    cases h
    exact hv
  | cons source sources ih =>
    obtain ⟨t, ht, h⟩ := Except.bind_eq_ok_iff.mp h
    obtain ⟨l, -, rfl⟩ := add_eq_ok_iff.mp ht
    exact ih h (by rw [find?_addLayer, hv, Option.some_or])

theorem isFilled_foldlM_add_iff {s s' : Store} {sources : List Source} (hs : s.IsFilled)
    (h : sources.foldlM add s = .ok s') : s'.IsFilled ↔ s.IsCleanRun (sources.map .add) := by
  induction sources generalizing s with
  | nil =>
    cases h
    exact iff_of_true hs trivial
  | cons source sources ih =>
    obtain ⟨t, ht, h⟩ := Except.bind_eq_ok_iff.mp h
    have ha : (Change.add source).apply s = t := by
      rw [Change.apply, Change.run, ht]
      rfl
    rw [List.map_cons, IsCleanRun, ← Change.isFilled_apply_iff hs, ha]
    by_cases hf : t.IsFilled
    · rw [ih hf h]
      exact (and_iff_right hf).symm
    · -- a null that shows is not covered by the sources after it, which go below
      refine iff_of_false (fun hn => hf fun key hk => ?_) fun hn => hf hn.1
      exact hn key (find?_of_foldlM_add h hk)

end Store

/-- Whether no source that a store is made from holds null under a key that none before it holds.
A copy takes over no null, and a file has none. -/
def Origin.IsClean : Origin → Prop
  | composite sources => (Store.empty false).IsCleanRun (sources.map .add)
  | configuration source? => (Store.empty true).IsCleanRun (source?.toList.map .add)
  | copy _ | file .. => True

theorem Origin.isFilled_make_iff {o : Origin} {s : Store} (h : o.make = .ok s) :
    s.IsFilled ↔ o.IsClean := by
  cases o with
  | composite sources => exact Store.isFilled_foldlM_add_iff (.empty false) h
  | configuration source? => exact Store.isFilled_foldlM_add_iff (.empty true) h
  | copy s₀ =>
    cases h
    exact iff_of_true (.flattened s₀) trivial
  | file files path =>
    obtain ⟨l, hl, he⟩ := Logged.bind_result_eq_ok_iff.mp h
    cases he
    have hf := (Store.IsFilled.empty true).addLayer_iff l
    exact iff_of_true (hf.mpr fun key hk => absurd hk (Loader.get?_ne_null_of_load hl key)) trivial

/-- Every state of a run, the first included, is in sync exactly if no source brings null under a
key that no layer holds. -/
theorem inSync_after_iff {o : Origin} {s : Store} (h : o.make = .ok s) (cs : List Change) :
    (∀ n, (s.after (cs.take n)).InSync) ↔ o.IsClean ∧ s.IsCleanRun cs := by
  simp only [Store.inSync_iff]
  rw [← Origin.isFilled_make_iff h]
  constructor
  · intro hn
    have hs : s.IsFilled := hn 0
    exact ⟨hs, (Store.isFilled_after_iff hs cs).mp hn⟩
  · rintro ⟨hs, hc⟩
    exact (Store.isFilled_after_iff hs cs).mpr hc

theorem inSync_after_overwritten :
    (Origin.configuration (some (.entries [(.text "k", .int 1)]))).make =
        .ok ((Store.empty true).addLayer (.ofList [("k", .int 1)])) ∧
      ∀ n, (((Store.empty true).addLayer (.ofList [("k", .int 1)])).after
        ([.put "k" (.int 2), .putDefault "k" (.int 3), .put "k" .null, .clear].take n)).InSync := by
  refine ⟨rfl, (inSync_after_iff (o := .configuration (some (.entries [(.text "k", .int 1)]))) rfl
    _).mpr ⟨⟨?_, trivial⟩, trivial, trivial, trivial, trivial, trivial⟩⟩
  intro l hl key hk
  cases hl
  simp [OrderedMap.ofList, OrderedMap.get?_insert] at hk

theorem composite_contains_null :
    ∃ s, (Origin.composite [.entries [(.text "k", .null)]]).make = .ok s ∧
      s.contains "k" = true ∧ s.value "k" = .null ∧ ¬ s.InSync := by
  have hh : ((Store.empty false).addLayer (.ofList [("k", .null)])).contains "k" = true := by
    decide
  exact ⟨_, rfl, hh, rfl, fun h => (h.contains_iff "k").mp hh rfl⟩

end LayeredConfig
