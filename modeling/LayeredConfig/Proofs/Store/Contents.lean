import Mathlib.Tactic.SplitIfs
import LayeredConfig.Proofs.OrderedMap
import LayeredConfig.Proofs.Traversal
import LayeredConfig.Store

/-! What a store holds for a key, and what each operation makes of it. -/

namespace LayeredConfig.Store

theorem findIn_append (key : Text) (ls ls' : List Layer) :
    findIn key (ls ++ ls') = (findIn key ls).or (findIn key ls') := by
  induction ls with
  | nil => rfl
  | cons l ls ih =>
    rw [List.cons_append, findIn, findIn]
    cases l.get? key with
    | none => exact ih
    | some v => rfl

theorem exists_of_findIn_eq_some {key : Text} {ls : List Layer} {v : Value}
    (h : findIn key ls = some v) : ∃ l ∈ ls, l.get? key = some v := by
  induction ls with
  | nil => exact nomatch h
  | cons l ls ih =>
    rw [findIn] at h
    cases hl : l.get? key with
    | none =>
      rw [hl] at h
      obtain ⟨l', hm, hv⟩ := ih h
      exact ⟨l', List.mem_cons_of_mem _ hm, hv⟩
    | some w =>
      rw [hl] at h
      exact ⟨l, List.mem_cons_self, hl.trans h⟩

theorem find?_of_single {s : Store} (h : s.sources = []) (key : Text) :
    s.find? key = s.written.get? key := by
  rw [find?, layers, h, findIn]
  cases s.written.get? key <;> rfl

theorem contains_eq_isSome (s : Store) (key : Text) : s.contains key = (s.find? key).isSome := by
  have hh : ∀ ls : List Layer, (ls.any fun l => l.contains key) = (findIn key ls).isSome := by
    intro ls
    induction ls with
    | nil => rfl
    | cons l ls ih =>
      rw [List.any_cons, findIn, OrderedMap.contains, ih]
      cases l.get? key with
      | none => rfl
      | some v => rfl
  exact hh s.layers

theorem value_of_not_contains {s : Store} {key : Text} (h : s.contains key = false) :
    s.value key = .null := by
  rw [contains_eq_isSome, Option.isSome_eq_false_iff, Option.isNone_iff_eq_none] at h
  rw [value, h]
  rfl

theorem contains_of_value_ne_null {s : Store} {key : Text} (h : s.value key ≠ .null) :
    s.contains key = true := by
  cases hc : s.contains key with
  | true => rfl
  | false => exact absurd (value_of_not_contains hc) h

/-! ### Operations -/

@[simp] theorem find?_empty (b : Bool) (key : Text) : (empty b).find? key = none := rfl

theorem find?_addLayer (s : Store) (l : Layer) (key : Text) :
    (s.addLayer l).find? key = (s.find? key).or (l.get? key) := by
  have hl : findIn key [l] = l.get? key := by
    rw [findIn]
    cases l.get? key with
    | none => rfl
    | some v => rfl
  rw [find?, find?, ← hl, ← findIn_append]
  rfl

theorem find?_erase (s : Store) (k key : Text) :
    (s.erase k).find? key = if k = key then none else s.find? key := by
  have hh : ∀ ls : List Layer, findIn key (ls.map fun l => l.erase k) =
      if k = key then none else findIn key ls := by
    intro ls
    induction ls with
    | nil => simp [findIn]
    | cons l ls ih =>
      rw [List.map_cons, findIn, findIn, OrderedMap.get?_erase, ih]
      by_cases hk : k = key
      · simp [hk]
      · simp [hk]
  exact hh s.layers

theorem find?_put (s : Store) (k : Text) (v : Value) (key : Text) :
    (s.put k v).find? key =
      if k = key then (if v.isNull then none else some v) else s.find? key := by
  rw [put]
  split_ifs with hn hk hk
  · rw [find?_erase, if_pos hk]
  · rw [find?_erase, if_neg hk]
  · simp [find?, layers, findIn, hk]
  · simp [find?, layers, findIn, OrderedMap.get?_insert, hk]

theorem isNull_of_ne_null {v : Value} (hv : v ≠ .null) : v.isNull = false := by
  cases v with
  | null => exact absurd rfl hv
  | _ => rfl

theorem isNull_iff {v : Value} : v.isNull = true ↔ v = .null := by
  cases v <;> simp [Value.isNull]

theorem find?_put_of_ne_null (s : Store) (k : Text) {v : Value} (hv : v ≠ .null) (key : Text) :
    (s.put k v).find? key = if k = key then some v else s.find? key := by
  rw [find?_put, isNull_of_ne_null hv, if_neg Bool.false_ne_true]

theorem value_put (s : Store) (k : Text) (v : Value) (key : Text) :
    (s.put k v).value key = if k = key then v else s.value key := by
  rw [value, find?_put]
  split_ifs with hk hn
  · cases v with
    | null => rfl
    | _ => exact nomatch hn
  · rfl
  · rfl

theorem value_eq_of_find? {s : Store} {key : Text} {v : Value} (h : s.find? key = some v) :
    s.value key = v := by
  rw [value, h]
  rfl

theorem find?_of_value {s : Store} {key : Text} {v : Value} (h : s.value key = v)
    (hv : v ≠ .null) : s.find? key = some v := by
  rw [value] at h
  cases hf : s.find? key with
  | none => exact absurd (by rw [← h, hf]; rfl) hv
  | some w =>
    rw [hf] at h
    exact congrArg some h

theorem find?_clear (s : Store) (key : Text) : s.clear.find? key = none := by
  have hh : ∀ ls : List Layer, findIn key (ls.map fun _ => (.empty : Layer)) = none := by
    intro ls
    induction ls with
    | nil => rfl
    | cons l ls ih =>
      rw [List.map_cons, findIn, OrderedMap.get?_empty]
      exact ih
  exact hh s.layers

theorem find?_foldl_erase (s : Store) (ks : List Text) (key : Text) :
    (ks.foldl erase s).find? key = if key ∈ ks then none else s.find? key := by
  induction ks generalizing s with
  | nil => simp
  | cons k ks ih =>
    rw [List.foldl_cons, ih, find?_erase]
    by_cases hk : k = key
    · simp [hk]
    · simp [hk, Ne.symm hk]

@[simp] theorem isStrict_erase (s : Store) (k : Text) : (s.erase k).isStrict = s.isStrict := rfl

@[simp] theorem isStrict_put (s : Store) (k : Text) (v : Value) :
    (s.put k v).isStrict = s.isStrict := by
  rw [put]
  split_ifs <;> rfl

@[simp] theorem isStrict_clear (s : Store) : s.clear.isStrict = s.isStrict := rfl

@[simp] theorem isStrict_addLayer (s : Store) (l : Layer) :
    (s.addLayer l).isStrict = s.isStrict := rfl

/-- Without null among them, entries go into the top layer one by one. -/
theorem putAll_eq {s : Store} {es : List (Text × Value)} (h : ∀ e ∈ es, e.2 ≠ .null) :
    s.putAll es = { s with written := es.foldl (fun l e => l.insert e.1 e.2) s.written } := by
  induction es generalizing s with
  | nil => rfl
  | cons e es ih =>
    obtain ⟨he, hes⟩ := List.forall_mem_cons.mp h
    have hp : s.put e.1 e.2 = { s with written := s.written.insert e.1 e.2 } := by
      rw [put, isNull_of_ne_null he]
      rfl
    change (s.put e.1 e.2).putAll es = _
    rw [hp, ih hes]
    rfl

/-! ### Keys -/

theorem unseen_eq_eraseDups (seen ks : List Text) :
    unseen seen ks = (ks.filter fun k => decide (k ∉ seen)).eraseDups := by
  induction ks generalizing seen with
  | nil => rfl
  | cons a ks ih =>
    rw [unseen]
    split_ifs with ha
    · rw [List.filter_cons_of_neg (by simpa using ha), ih]
    · have hp (k : Text) : (!k == a && decide (k ∉ seen)) = decide (k ∉ a :: seen) := by
        by_cases hk : k = a <;> simp [hk]
      rw [List.filter_cons_of_pos (by simpa using ha), List.eraseDups_cons, List.filter_filter, ih]
      simp only [hp]

theorem mem_unseen {seen ks : List Text} {k : Text} :
    k ∈ unseen seen ks ↔ k ∈ ks ∧ k ∉ seen := by
  rw [unseen_eq_eraseDups, List.mem_eraseDups, List.mem_filter, decide_eq_true_eq]

theorem nodup_unseen (seen ks : List Text) : (unseen seen ks).Nodup := by
  induction ks generalizing seen with
  | nil => simp [unseen]
  | cons a ks ih =>
    rw [unseen]
    split_ifs with ha
    · exact ih seen
    · exact List.nodup_cons.mpr ⟨fun h => (mem_unseen.mp h).2 List.mem_cons_self, ih _⟩

theorem unseen_of_nodup {seen ks : List Text} (h : ks.Nodup) (hs : ∀ k ∈ ks, k ∉ seen) :
    unseen seen ks = ks := by
  rw [unseen_eq_eraseDups, List.filter_eq_self.mpr (by simpa using hs),
    OrderedMap.eraseDups_eq_self h]

theorem keys_eq_eraseDups (s : Store) :
    s.keys = (s.layers.flatMap OrderedMap.keys).eraseDups := by
  rw [keys, unseen_eq_eraseDups, List.filter_eq_self.mpr (by simp)]

theorem nodup_keys (s : Store) : s.keys.Nodup := nodup_unseen [] _

theorem mem_keys_iff {s : Store} {key : Text} : key ∈ s.keys ↔ s.contains key = true := by
  simp only [keys, mem_unseen, List.mem_flatMap, List.not_mem_nil, not_false_eq_true, and_true,
    contains, List.any_eq_true, OrderedMap.contains_iff]

theorem resolved_entries (s : Store) : s.resolved.entries = s.keys.map fun k => (k, s.value k) :=
  OrderedMap.ofList_map_entries s.nodup_keys s.value

theorem keys_resolved (s : Store) : s.resolved.keys = s.keys := by
  rw [OrderedMap.keys, resolved_entries, List.map_map]
  exact List.map_id s.keys

theorem get?_resolved (s : Store) (key : Text) :
    s.resolved.get? key = if s.contains key then some (s.value key) else none := by
  have hh : ∀ ks : List Text, OrderedMap.find? key (ks.map fun k => (k, s.value k)) =
      if key ∈ ks then some (s.value key) else none := by
    intro ks
    induction ks with
    | nil => rfl
    | cons k ks ih =>
      rw [List.map_cons, OrderedMap.find?, ih]
      by_cases hk : k = key
      · simp [hk]
      · simp [hk, Ne.symm hk]
  rw [OrderedMap.get?, resolved_entries, hh]
  simp only [mem_keys_iff]

theorem keys_empty_addLayer (b : Bool) (l : Layer) : ((empty b).addLayer l).keys = l.keys := by
  have hh : (((empty b).addLayer l).layers.flatMap OrderedMap.keys) = l.keys := by
    simp [layers, addLayer, empty, OrderedMap.keys, OrderedMap.empty]
  rw [keys, hh]
  exact unseen_of_nodup l.nodup_keys (by simp)

theorem keys_of_single {s : Store} (h : s.sources = []) : s.keys = s.written.keys := by
  have hh : s.layers.flatMap OrderedMap.keys = s.written.keys := by
    simp [layers, h]
  rw [keys, hh]
  exact unseen_of_nodup s.written.nodup_keys (by simp)

theorem filter_unseen (p : Text → Bool) (seen ks : List Text) :
    (unseen seen ks).filter p = unseen seen (ks.filter p) := by
  rw [unseen_eq_eraseDups, unseen_eq_eraseDups, OrderedMap.filter_eraseDups, List.filter_filter,
    List.filter_filter]
  simp only [Bool.and_comm]

theorem filter_keys (s : Store) (p : Text → Bool) :
    s.keys.filter p = unseen [] (s.layers.flatMap fun l => l.keys.filter p) := by
  rw [keys, filter_unseen, List.filter_flatMap]

end LayeredConfig.Store

namespace LayeredConfig

/-! ### Maps as sources -/

def Source.ofMap (m : OrderedMap Value) : Source :=
  .entries (m.entries.map fun e => (.text e.1, e.2))

/-- A map from texts becomes a layer as it is. -/
theorem Source.layer_ofMap (m : OrderedMap Value) : (ofMap m).layer = .ok m := by
  have hm : m.entries.mapM (Layer.entry ∘ fun e => (.text e.1, e.2)) = .ok m.entries :=
    (mapM_eq_pure_map fun _ _ => rfl).trans (congrArg Except.ok (List.map_id m.entries))
  rw [ofMap, layer, Layer.ofEntries, List.mapM_map, hm]
  exact congrArg Except.ok (OrderedMap.ofList_self m)

theorem Store.add_ofMap (s : Store) (m : OrderedMap Value) :
    s.add (.ofMap m) = .ok (s.addLayer m) := by
  rw [add, Source.layer_ofMap]
  rfl

end LayeredConfig
