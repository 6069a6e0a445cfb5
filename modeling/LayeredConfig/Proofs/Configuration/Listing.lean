import Mathlib.Data.Finset.Card
import LayeredConfig.Proofs.Configuration.Run
import LayeredConfig.Proofs.Store.Views

/-! What a store lists, and in which order. A key comes by the first layer that holds it and then
by when it was added there. Along a run of changes a key that was added later never passes one
that has stayed. -/

namespace LayeredConfig

/-! ### Layers one below the other -/

/-- The index of the first layer that holds a key, or the number of layers. -/
def firstHolder (ls : List Layer) (key : Text) : Nat := ls.findIdx fun l => l.contains key

/-- The keys of the layer at an index, in their order; none where there is no layer. -/
def keysAt (ls : List Layer) (index : Nat) : List Text := (ls[index]?.map OrderedMap.keys).getD []

def Precedes (ls : List Layer) (a b : Text) : Prop :=
  firstHolder ls a < firstHolder ls b ∨
    firstHolder ls a = firstHolder ls b ∧ [a, b].Sublist (keysAt ls (firstHolder ls a))

/-- The keys that some layer holds, each once and in their order; of those in a space the part
that lies in it; how many they are; and each with the value in its first layer. -/
structure Store.ListsKeys (s : Store) : Prop where
  nodup : s.keys.Nodup
  mem_iff (key : Text) : key ∈ s.keys ↔ ∃ l ∈ s.layers, key ∈ l.keys
  ordered : s.keys.Pairwise (Precedes s.layers)
  within_sublist (space : Text) : (s.keysWithin space).Sublist s.keys
  mem_within_iff (space key : Text) : key ∈ s.keysWithin space ↔
    key ∈ s.keys ∧ (key = space ∨ ∃ rest, key = space ++ .scalar '.' :: rest)
  size : s.size = (s.layers.flatMap OrderedMap.keys).toFinset.card
  isEmpty_iff : s.isEmpty = true ↔ ∀ l ∈ s.layers, ∀ key, key ∉ l.keys
  keys_resolved : s.resolved.keys = s.keys
  get?_resolved (key : Text) :
    s.resolved.get? key = s.layers[firstHolder s.layers key]?.bind fun l => l.get? key

section layers

variable {l : Layer} {ls : List Layer} {a b key : Text}

theorem firstHolder_of_mem (h : key ∈ l.keys) : firstHolder (l :: ls) key = 0 := by
  rw [firstHolder, List.findIdx_cons, OrderedMap.contains_iff.mpr h]
  rfl

theorem firstHolder_of_not_mem (h : key ∉ l.keys) :
    firstHolder (l :: ls) key = firstHolder ls key + 1 := by
  have hc : l.contains key = false := by
    rw [Bool.eq_false_iff]
    exact fun hc => h (OrderedMap.contains_iff.mp hc)
  rw [firstHolder, List.findIdx_cons, hc]
  rfl

theorem findIn_eq_getElem? (key : Text) (ls : List Layer) :
    Store.findIn key ls = ls[firstHolder ls key]?.bind fun l => l.get? key := by
  induction ls with
  | nil => rfl
  | cons l ls ih =>
    rw [Store.findIn]
    by_cases hk : key ∈ l.keys
    · rw [firstHolder_of_mem hk]
      cases hg : l.get? key with
      | none => exact absurd hk (OrderedMap.get?_eq_none_iff.mp hg)
      | some v => exact hg.symm
    · rw [firstHolder_of_not_mem hk, OrderedMap.get?_eq_none_iff.mpr hk, ih]
      rfl

theorem Precedes.of_top (hs : [a, b].Sublist l.keys) : Precedes (l :: ls) a b := by
  have ha : a ∈ l.keys := hs.subset (by simp)
  have hb : b ∈ l.keys := hs.subset (by simp)
  rw [Precedes, firstHolder_of_mem ha, firstHolder_of_mem hb]
  exact .inr ⟨rfl, hs⟩

theorem Precedes.of_top_below (ha : a ∈ l.keys) (hb : b ∉ l.keys) : Precedes (l :: ls) a b := by
  rw [Precedes, firstHolder_of_mem ha, firstHolder_of_not_mem hb]
  exact .inl (Nat.succ_pos _)

theorem Precedes.below (h : Precedes ls a b) (ha : a ∉ l.keys) (hb : b ∉ l.keys) :
    Precedes (l :: ls) a b := by
  rw [Precedes, firstHolder_of_not_mem ha, firstHolder_of_not_mem hb]
  exact h.imp Nat.succ_lt_succ fun hh => ⟨congrArg Nat.succ hh.1, hh.2⟩

/-- What the top layer holds comes first, and is not listed again for a layer below it. -/
theorem eraseDups_keys_cons (l : Layer) (ls : List Layer) :
    ((l :: ls).flatMap OrderedMap.keys).eraseDups =
      l.keys ++ ((ls.flatMap OrderedMap.keys).eraseDups.filter fun k => decide (k ∉ l.keys)) := by
  have hp (k : Text) : (!l.keys.elem k) = decide (k ∉ l.keys) := by
    by_cases hk : k ∈ l.keys <;> simp [hk]
  have hl : l.keys.eraseDups = l.keys := OrderedMap.eraseDups_eq_self l.nodup_keys
  rw [List.flatMap_cons, List.eraseDups_append, List.removeAll, ← OrderedMap.filter_eraseDups, hl]
  simp only [hp]

theorem pairwise_precedes (ls : List Layer) :
    (ls.flatMap OrderedMap.keys).eraseDups.Pairwise (Precedes ls) := by
  induction ls with
  | nil => exact List.Pairwise.nil
  | cons l ls ih =>
    have hn {k : Text} {ks : List Text} (hk : k ∈ ks.filter fun k => decide (k ∉ l.keys)) :
        k ∉ l.keys := of_decide_eq_true (List.mem_filter.mp hk).2
    rw [eraseDups_keys_cons, List.pairwise_append]
    refine ⟨List.pairwise_iff_forall_sublist.mpr .of_top, ?_, ?_⟩
    · exact (ih.filter _).imp_of_mem fun ha hb h => h.below (hn ha) (hn hb)
    · exact fun a ha b hb => .of_top_below ha (hn hb)

end layers

namespace Store

variable {s : Store} {key : Text}

theorem exists_mem_keys_iff : key ∈ s.keys ↔ ∃ l ∈ s.layers, key ∈ l.keys := by
  simp only [mem_keys_iff, contains, List.any_eq_true, OrderedMap.contains_iff]

theorem size_eq_card (s : Store) :
    s.size = (s.layers.flatMap OrderedMap.keys).toFinset.card := by
  have hk : s.keys.toFinset = (s.layers.flatMap OrderedMap.keys).toFinset := by
    ext key
    rw [List.mem_toFinset, List.mem_toFinset, exists_mem_keys_iff, List.mem_flatMap]
  rw [← hk, List.toFinset_card_of_nodup s.nodup_keys]
  rfl

theorem isEmpty_iff : s.isEmpty = true ↔ ∀ l ∈ s.layers, ∀ key, key ∉ l.keys := by
  have hl (l : Layer) : l.isEmpty = true ↔ ∀ key, key ∉ l.keys := by
    rw [OrderedMap.isEmpty, List.isEmpty_iff, ← List.eq_nil_iff_forall_not_mem, OrderedMap.keys,
      List.map_eq_nil_iff]
  simp only [isEmpty, List.all_eq_true, hl]

theorem get?_resolved_eq_find? (s : Store) (key : Text) : s.resolved.get? key = s.find? key := by
  rw [get?_resolved, contains_eq_isSome, value]
  cases s.find? key <;> rfl

theorem listsKeys (s : Store) : s.ListsKeys where
  nodup := s.nodup_keys
  mem_iff _ := exists_mem_keys_iff
  ordered := s.keys_eq_eraseDups ▸ pairwise_precedes s.layers
  within_sublist _ := List.filter_sublist
  mem_within_iff space key := by rw [keysWithin, List.mem_filter, isWithin_iff]
  size := s.size_eq_card
  isEmpty_iff := isEmpty_iff
  keys_resolved := s.keys_resolved
  get?_resolved key := (s.get?_resolved_eq_find? key).trans (findIn_eq_getElem? key s.layers)

end Store

/-! ### Pairs in a list -/

theorem pair_sublist_or {ks : List Text} {a b : Text} (ha : a ∈ ks) (hb : b ∈ ks) (hne : a ≠ b) :
    [a, b].Sublist ks ∨ [b, a].Sublist ks := by
  induction ks with
  | nil => exact absurd ha List.not_mem_nil
  | cons k ks ih =>
    by_cases hka : k = a
    · have hb' : b ∈ ks := (List.mem_cons.mp hb).resolve_left (hka ▸ Ne.symm hne)
      exact .inl (hka ▸ (List.singleton_sublist.mpr hb').cons_cons k)
    by_cases hkb : k = b
    · have ha' : a ∈ ks := (List.mem_cons.mp ha).resolve_left (Ne.symm hka)
      exact .inr (hkb ▸ (List.singleton_sublist.mpr ha').cons_cons k)
    · have ha' : a ∈ ks := (List.mem_cons.mp ha).resolve_left (Ne.symm hka)
      have hb' : b ∈ ks := (List.mem_cons.mp hb).resolve_left (Ne.symm hkb)
      exact (ih ha' hb').imp (List.Sublist.cons k) (List.Sublist.cons k)

theorem not_pair_sublist_swap {ks : List Text} {a b : Text} (hn : ks.Nodup)
    (h : [a, b].Sublist ks) : ¬ [b, a].Sublist ks := by
  induction ks with
  | nil => exact nomatch h
  | cons k ks ih =>
    obtain ⟨hk, hn⟩ := List.nodup_cons.mp hn
    intro h'
    cases h with
    | cons _ h =>
      cases h' with
      | cons _ h' => exact ih hn h h'
      | cons_cons _ _ => exact hk (h.subset (by simp))
    | cons_cons _ h =>
      cases h' with
      | cons _ h' => exact hk (h'.subset (by simp))
      | cons_cons _ _ => exact hk (h.subset (by simp))

/-! ### The order of a layer along a run -/

/-- Keys that stay keep their order, and those that are new come after them. -/
def Continues (before after : List Text) : Prop :=
  ∃ kept added, after = kept ++ added ∧ kept.Sublist before ∧ ∀ key ∈ added, key ∉ before

namespace Continues

variable {before after : List Text} {a b : Text}

theorem of_sublist (h : after.Sublist before) : Continues before after :=
  ⟨after, [], (List.append_nil after).symm, h, by simp⟩

theorem pair_sublist (h : Continues before after) (hb : b ∈ before)
    (hs : [a, b].Sublist after) : [a, b].Sublist before := by
  obtain ⟨kept, added, rfl, hk, ha⟩ := h
  obtain ⟨left, right, he, hl, hr⟩ := List.sublist_append_iff.mp hs
  -- the second of the two has stayed, so nothing of the pair is new
  have hn : right = [] := by
    by_contra hne
    have hlast : right.getLast? = some b := by
      have hh := congrArg List.getLast? he
      rw [List.getLast?_append_of_ne_nil _ hne] at hh
      exact hh.symm
    exact ha b (hr.subset (List.mem_of_getLast? hlast)) hb
  rw [hn, List.append_nil] at he
  rw [he]
  exact hl.trans hk

end Continues

/-- The changes that are no setters: sources are added, and keys are written and removed. -/
def Change.IsRaw : Change → Prop
  | add _ | put _ _ | erase _ | clear => True
  | _ => False

namespace Store

variable {s : Store} {index : Nat} {a b : Text}

theorem nodup_keysAt (ls : List Layer) (index : Nat) : (keysAt ls index).Nodup := by
  rw [keysAt]
  cases ls[index]? with
  | none => exact List.nodup_nil
  | some l => exact l.nodup_keys

theorem keysAt_mapLayers (s : Store) (f : Layer → Layer) (index : Nat) :
    keysAt (s.mapLayers f).layers index = (s.layers[index]?.map fun l => (f l).keys).getD [] := by
  have hl : (s.mapLayers f).layers = s.layers.map f := rfl
  rw [keysAt, hl, List.getElem?_map, Option.map_map]
  rfl

theorem keysAt_erase (s : Store) (key : Text) (index : Nat) : keysAt (s.erase key).layers index =
    (keysAt s.layers index).filter fun k => decide (k ≠ key) := by
  have hk (l : Layer) : (l.erase key).keys = l.keys.filter fun k => decide (k ≠ key) :=
    OrderedMap.keys_restrict (fun k => decide (k ≠ key)) l
  rw [erase, keysAt_mapLayers, keysAt]
  cases s.layers[index]? with
  | none => rfl
  | some l => exact hk l

theorem keysAt_clear (s : Store) (index : Nat) : keysAt s.clear.layers index = [] := by
  rw [clear, keysAt_mapLayers]
  cases s.layers[index]? <;> rfl

theorem keysAt_addLayer (s : Store) (l : Layer) (index : Nat) : keysAt (s.addLayer l).layers index =
    if index = s.layerCount then l.keys else keysAt s.layers index := by
  have hl : (s.addLayer l).layers = s.layers ++ [l] := rfl
  have hn : s.layers.length = s.layerCount := rfl
  rw [keysAt, keysAt, hl, List.getElem?_append, hn]
  by_cases hi : index < s.layerCount
  · rw [if_pos hi, if_neg (by omega)]
  · have ho : s.layers[index]? = none := List.getElem?_eq_none (by omega)
    rw [if_neg hi, ho]
    by_cases he : index = s.layerCount
    · simp [he]
    · have hlt : 1 ≤ index - s.layerCount := by omega
      simp [he, List.getElem?_eq_none, hlt]

theorem continues_put (s : Store) (key : Text) (v : Value) (index : Nat) :
    Continues (keysAt s.layers index) (keysAt (s.put key v).layers index) := by
  rw [put]
  split_ifs
  · rw [keysAt_erase]
    exact .of_sublist List.filter_sublist
  · cases index with
    | succ index => exact .of_sublist (List.Sublist.refl _)
    | zero =>
      change Continues s.written.keys (s.written.insert key v).keys
      by_cases hk : key ∈ s.written.keys
      · rw [OrderedMap.keys_insert_of_mem hk]
        exact .of_sublist (List.Sublist.refl _)
      · rw [OrderedMap.keys_insert_of_not_mem hk]
        exact ⟨_, [key], rfl, List.Sublist.refl _, by simpa using hk⟩

theorem continues_addLayer (s : Store) (l : Layer) (index : Nat) :
    Continues (keysAt s.layers index) (keysAt (s.addLayer l).layers index) := by
  rw [keysAt_addLayer]
  by_cases hi : index = s.layerCount
  · -- the layer is new, and nothing was at its place
    have hn : keysAt s.layers index = [] := by
      rw [keysAt, List.getElem?_eq_none (by rw [hi]; exact Nat.le_refl _)]
      rfl
    rw [if_pos hi, hn]
    exact ⟨[], l.keys, rfl, List.Sublist.refl _, by simp⟩
  · rw [if_neg hi]
    exact .of_sublist (List.Sublist.refl _)

theorem continues_apply {c : Change} (hc : c.IsRaw) (s : Store) (index : Nat) :
    Continues (keysAt s.layers index) (keysAt (c.apply s).layers index) := by
  cases c with
  | add source =>
    rw [Change.apply, Change.run]
    rcases s.attempt_fst_cases (s.add source) with h | h
    · rw [h]
      exact .of_sublist (List.Sublist.refl _)
    · obtain ⟨l, -, he⟩ := add_eq_ok_iff.mp h
      rw [← he]
      exact s.continues_addLayer l index
  | put key v => exact s.continues_put key v index
  | erase key =>
    change Continues _ (keysAt (s.erase key).layers index)
    rw [keysAt_erase]
    exact .of_sublist List.filter_sublist
  | clear =>
    change Continues _ (keysAt s.clear.layers index)
    rw [keysAt_clear]
    exact .of_sublist (List.nil_sublist _)
  | _ => exact hc.elim

theorem pair_sublist_of_after {cs : List Change} (hr : ∀ c ∈ cs, c.IsRaw)
    (hb : ∀ n, b ∈ keysAt (s.after (cs.take n)).layers index)
    (hs : [a, b].Sublist (keysAt (s.after cs).layers index)) :
    [a, b].Sublist (keysAt s.layers index) := by
  induction cs generalizing s with
  | nil => exact hs
  | cons c cs ih =>
    obtain ⟨hc, hcs⟩ := List.forall_mem_cons.mp hr
    have hh := ih hcs (fun n => hb (n + 1)) hs
    exact (continues_apply hc s index).pair_sublist (hb 0) hh

theorem after_append (s : Store) (cs ds : List Change) :
    s.after (cs ++ ds) = (s.after cs).after ds := List.foldl_append

/-- Whether a layer holds a key from the first `n` changes of a run on. -/
def HeldSince (s : Store) (cs : List Change) (index n : Nat) (key : Text) : Prop :=
  ∀ m, n ≤ m → key ∈ keysAt (s.after (cs.take m)).layers index

/-- In each layer a key that is added stands after those that are held then and stay, and two keys
that stay keep their order. -/
structure KeepsOrder (s : Store) (cs : List Change) : Prop where
  later (index n : Nat) (a b : Text) : s.HeldSince cs index n a →
    b ∉ keysAt (s.after (cs.take n)).layers index → b ∈ keysAt (s.after cs).layers index →
      [a, b].Sublist (keysAt (s.after cs).layers index)
  stays (index n : Nat) (a b : Text) : s.HeldSince cs index n a → s.HeldSince cs index n b →
    ([a, b].Sublist (keysAt (s.after cs).layers index) ↔
      [a, b].Sublist (keysAt (s.after (cs.take n)).layers index))

theorem pair_sublist_of_heldSince {cs : List Change} {n m : Nat} (hr : ∀ c ∈ cs, c.IsRaw)
    (hb : s.HeldSince cs index n b) (hs : [a, b].Sublist (keysAt (s.after cs).layers index))
    (hnm : n ≤ m) : [a, b].Sublist (keysAt (s.after (cs.take m)).layers index) := by
  have hd : ∀ c ∈ cs.drop m, c.IsRaw := fun c hc => hr c (List.mem_of_mem_drop hc)
  have he : (s.after (cs.take m)).after (cs.drop m) = s.after cs := by
    rw [← after_append, List.take_append_drop]
  refine pair_sublist_of_after hd (fun k => ?_) (he ▸ hs)
  rw [← after_append, ← List.take_add]
  exact hb (m + k) (by omega)

theorem HeldSince.mem {cs : List Change} {n : Nat} (h : s.HeldSince cs index n a) :
    a ∈ keysAt (s.after cs).layers index := by
  have hh := h (n + cs.length) (by omega)
  rwa [List.take_of_length_le (by omega)] at hh

theorem keepsOrder {cs : List Change} (hr : ∀ c ∈ cs, c.IsRaw) : s.KeepsOrder cs where
  later index n a b ha hn hb := by
    have hne : a ≠ b := fun he => hn (he ▸ ha n (Nat.le_refl n))
    rcases pair_sublist_or ha.mem hb hne with hs | hs
    · exact hs
    · -- what stands before a key that stayed was there with it
      have hh := pair_sublist_of_heldSince hr ha hs (Nat.le_refl n)
      exact absurd (hh.subset (by simp)) hn
  stays index n a b ha hb := by
    refine ⟨fun hs => pair_sublist_of_heldSince hr hb hs (Nat.le_refl n), fun hs => ?_⟩
    have hnd := nodup_keysAt (s.after (cs.take n)).layers index
    have hne : a ≠ b := by
      rintro rfl
      exact not_pair_sublist_swap hnd hs hs
    rcases pair_sublist_or ha.mem hb.mem hne with h | h
    · exact h
    · have hh := pair_sublist_of_heldSince hr ha h (Nat.le_refl n)
      exact absurd hh (not_pair_sublist_swap hnd hs)

theorem keysAt_add {source : Source} {l : Layer} (h : source.layer = .ok l) (s : Store) :
    keysAt ((Change.add source).apply s).layers s.layerCount = l.keys := by
  have ha : (Change.add source).apply s = s.addLayer l := by
    rw [Change.apply, Change.run, add, h]
    rfl
  rw [ha, keysAt_addLayer, if_pos rfl]

/-- After any run each key that a layer holds is listed once, by its first layer and its place
there. In a layer the keys are in the order in which they were added along the run, and a source
that is added makes a layer with its keys in their order. -/
theorem listsKeys_after (s : Store) {cs : List Change} (hr : ∀ c ∈ cs, c.IsRaw) :
    (s.after cs).ListsKeys ∧ s.KeepsOrder cs ∧
      (∀ m : OrderedMap Value, keysAt ((Change.add (.ofMap m)).apply (s.after cs)).layers
        (s.after cs).layerCount = m.keys) ∧
      ∀ t : Store, keysAt ((Change.add (.store t)).apply (s.after cs)).layers
        (s.after cs).layerCount = t.keys := by
  refine ⟨listsKeys _, keepsOrder hr, fun m => keysAt_add (Source.layer_ofMap m) _, fun t => ?_⟩
  have hl : (Source.store t).layer = .ok t.resolved := rfl
  rw [keysAt_add hl, keys_resolved]

/-- A key of the source that is covered and then removed, and added again after another. -/
def reordering : List Change := [.add (.ofMap (.ofList [("b", .int 1), ("a", .int 2)])),
  .put "a" (.int 3), .put "c" (.int 4), .put "b" .null, .erase "a", .put "a" (.int 5),
  .put "c" (.int 6), .add (.ofMap (.ofList [("a", .int 7), ("d", .int 8)]))]

theorem reordering_listsKeys : (∀ c ∈ reordering, c.IsRaw) ∧
    ((empty false).after reordering).ListsKeys ∧ (empty false).KeepsOrder reordering ∧
    ((empty false).after reordering).keys = ["c", "a", "d"] := by
  have hr : ∀ c ∈ reordering, c.IsRaw := by simp [reordering, Change.IsRaw]
  obtain ⟨hl, hk, -⟩ := listsKeys_after (empty false) hr
  exact ⟨hr, hl, hk, by decide⟩

end Store

end LayeredConfig
