import LayeredConfig.OrderedMap

/-! Maps built from entries, and what a map holds for a key. -/

namespace LayeredConfig.OrderedMap

variable {α β : Type}

theorem write_of_not_mem {key : Text} {value : α} {es : List (Text × α)}
    (h : key ∉ es.map Prod.fst) : write key value es = es ++ [(key, value)] := by
  induction es with
  | nil => rfl
  | cons e es ih =>
    obtain ⟨k, v⟩ := e
    simp only [List.map_cons, List.mem_cons, not_or] at h
    rw [write, if_neg (Ne.symm h.1), ih h.2, List.cons_append]

theorem foldl_insert_entries {m : OrderedMap α} {es : List (Text × α)}
    (h : (m.keys ++ es.map Prod.fst).Nodup) :
    (es.foldl (fun m e => m.insert e.1 e.2) m).entries = m.entries ++ es := by
  induction es generalizing m with
  | nil => simp
  | cons e es ih =>
    have hk : e.1 ∉ m.keys := fun hm =>
      (List.nodup_append.mp h).2.2 e.1 hm e.1 (by simp) rfl
    have he : (m.insert e.1 e.2).entries = m.entries ++ [e] := write_of_not_mem hk
    rw [List.foldl_cons, ih, he, List.append_assoc, List.singleton_append]
    simpa [keys, he] using h

theorem ofList_entries {es : List (Text × α)} (h : (es.map Prod.fst).Nodup) :
    (ofList es).entries = es := by
  have he : ((empty : OrderedMap α).keys ++ es.map Prod.fst).Nodup := by
    simpa [keys, empty] using h
  have hh := foldl_insert_entries he
  simpa [ofList, empty] using hh

theorem ofList_map_entries {ks : List Text} (h : ks.Nodup) (f : Text → α) :
    (ofList (ks.map fun k => (k, f k))).entries = ks.map fun k => (k, f k) := by
  refine ofList_entries ?_
  rw [List.map_map]
  exact (List.map_id ks).symm ▸ h

theorem mem_keys_ofList {es : List (Text × α)} {key : Text} :
    key ∈ (ofList es).keys ↔ key ∈ es.map Prod.fst := by
  have hh : ∀ m : OrderedMap α, key ∈ (es.foldl (fun m e => m.insert e.1 e.2) m).keys ↔
      key ∈ m.keys ∨ key ∈ es.map Prod.fst := by
    induction es with
    | nil => simp
    | cons e es ih =>
      intro m
      have hi : key ∈ (m.insert e.1 e.2).keys ↔ key = e.1 ∨ key ∈ m.keys := mem_keys_write
      rw [List.foldl_cons, ih, hi, List.map_cons, List.mem_cons, or_assoc, or_left_comm]
  exact (hh empty).trans (or_iff_right List.not_mem_nil)

/-! Of a repeated key the first place and the last value count. -/

theorem find?_append (key : Text) (es fs : List (Text × α)) :
    find? key (es ++ fs) = (find? key es).or (find? key fs) := by
  induction es with
  | nil => rfl
  | cons e es ih =>
    rw [List.cons_append, find?, find?, ih]
    by_cases hk : e.1 = key
    · simp [hk]
    · simp [hk]

theorem get?_foldl_insert (es : List (Text × α)) (m : OrderedMap α) (key : Text) :
    (es.foldl (fun m e => m.insert e.1 e.2) m).get? key =
      (find? key es.reverse).or (m.get? key) := by
  induction es generalizing m with
  | nil => rfl
  | cons e es ih =>
    rw [List.foldl_cons, ih, List.reverse_cons, find?_append, get?_insert]
    cases find? key es.reverse with
    | some v => rfl
    | none => by_cases hk : e.1 = key <;> simp [find?, hk]

theorem get?_ofList (es : List (Text × α)) (key : Text) :
    (ofList es).get? key = find? key es.reverse := by
  rw [ofList, get?_foldl_insert, get?_empty, Option.or_none]

theorem keys_insert_of_mem {m : OrderedMap α} {key : Text} (h : key ∈ m.keys) (v : α) :
    (m.insert key v).keys = m.keys := by
  have hw : ∀ es : List (Text × α), key ∈ es.map Prod.fst →
      (write key v es).map Prod.fst = es.map Prod.fst := by
    intro es he
    induction es with
    | nil => exact absurd he List.not_mem_nil
    | cons e es ih =>
      obtain ⟨k, w⟩ := e
      by_cases hk : k = key
      · simp [write, hk]
      · have ht := (List.mem_cons.mp he).resolve_left (Ne.symm hk)
        simp [write, hk, ih ht]
  exact hw m.entries h

theorem keys_insert_of_not_mem {m : OrderedMap α} {key : Text} (h : key ∉ m.keys) (v : α) :
    (m.insert key v).keys = m.keys ++ [key] := by
  have hw : (m.insert key v).entries = m.entries ++ [(key, v)] := write_of_not_mem h
  simp [keys, hw]

theorem keys_foldl_insert (es : List (Text × α)) (m : OrderedMap α) :
    (es.foldl (fun m e => m.insert e.1 e.2) m).keys =
      m.keys ++ ((es.map Prod.fst).filter fun k => decide (k ∉ m.keys)).eraseDups := by
  induction es generalizing m with
  | nil => simp
  | cons e es ih =>
    rw [List.foldl_cons, ih, List.map_cons]
    by_cases hk : e.1 ∈ m.keys
    · rw [keys_insert_of_mem hk, List.filter_cons_of_neg (by simpa using hk)]
    · have hp (k : Text) : (!k == e.1 && decide (k ∉ m.keys)) = decide (k ∉ m.keys ++ [e.1]) := by
        by_cases he : k = e.1 <;> simp [he]
      rw [keys_insert_of_not_mem hk, List.filter_cons_of_pos (by simpa using hk),
        List.eraseDups_cons, List.filter_filter, List.append_assoc, List.singleton_append]
      simp only [hp]

theorem keys_ofList (es : List (Text × α)) : (ofList es).keys = (es.map Prod.fst).eraseDups := by
  rw [ofList, keys_foldl_insert, List.filter_eq_self.mpr (by simp [keys, empty])]
  rfl

theorem ofList_self (m : OrderedMap α) : ofList m.entries = m :=
  ext (ofList_entries m.nodup_keys)

@[simp] theorem map_entries (f : α → β) (m : OrderedMap α) :
    (m.map f).entries = m.entries.map fun e => (e.1, f e.2) := rfl

@[simp] theorem keys_map (f : α → β) (m : OrderedMap α) : (m.map f).keys = m.keys := by
  simp [keys]

theorem get?_map (f : α → β) (m : OrderedMap α) (key : Text) :
    (m.map f).get? key = (m.get? key).map f := by
  have hh : ∀ es : List (Text × α),
      find? key (es.map fun e => (e.1, f e.2)) = (find? key es).map f := by
    intro es
    induction es with
    | nil => rfl
    | cons e es ih =>
      rw [List.map_cons, find?, find?, ih]
      by_cases hk : e.1 = key
      · simp [hk]
      · simp [hk]
  exact hh m.entries

theorem mem_of_find? {es : List (Text × α)} {key : Text} {v : α} (h : find? key es = some v) :
    (key, v) ∈ es := by
  induction es with
  | nil => exact nomatch h
  | cons e es ih =>
    obtain ⟨k, w⟩ := e
    rw [find?] at h
    by_cases hk : k = key
    · rw [if_pos hk] at h
      rw [hk, Option.some.inj h]
      exact List.mem_cons_self
    · rw [if_neg hk] at h
      exact List.mem_cons_of_mem _ (ih h)

theorem find?_of_mem {es : List (Text × α)} {key : Text} {v : α} (hn : (es.map Prod.fst).Nodup)
    (h : (key, v) ∈ es) : find? key es = some v := by
  induction es with
  | nil => exact absurd h List.not_mem_nil
  | cons e es ih =>
    obtain ⟨k, w⟩ := e
    obtain ⟨hk, hn⟩ := List.nodup_cons.mp hn
    rcases List.mem_cons.mp h with h | h
    · cases h
      rw [find?, if_pos rfl]
    · have hm : key ∈ es.map Prod.fst := List.mem_map.mpr ⟨_, h, rfl⟩
      have hne : k ≠ key := fun hkk => hk (hkk ▸ hm)
      rw [find?, if_neg hne]
      exact ih hn h

theorem mem_of_get? {m : OrderedMap α} {key : Text} {v : α} (h : m.get? key = some v) :
    (key, v) ∈ m.entries := mem_of_find? h

theorem get?_of_mem {m : OrderedMap α} {key : Text} {v : α} (h : (key, v) ∈ m.entries) :
    m.get? key = some v := find?_of_mem m.nodup_keys h

theorem mem_entries_iff {m : OrderedMap α} {e : Text × α} :
    e ∈ m.entries ↔ m.get? e.1 = some e.2 := ⟨get?_of_mem, mem_of_get?⟩

/-- Where no key is repeated, the order of the entries does not matter. -/
theorem find?_perm {es fs : List (Text × α)} (h : es.Perm fs) (hn : (fs.map Prod.fst).Nodup)
    (key : Text) : find? key es = find? key fs := by
  have hn' : (es.map Prod.fst).Nodup := (h.map Prod.fst).nodup_iff.mpr hn
  apply Option.ext
  intro v
  constructor
  · exact fun he => find?_of_mem hn (h.mem_iff.mp (mem_of_find? he))
  · exact fun hf => find?_of_mem hn' (h.mem_iff.mpr (mem_of_find? hf))

/-- Two maps with the same keys in the same order are equal if they hold the same for each. -/
theorem ext_get? {m n : OrderedMap α} (hk : m.keys = n.keys)
    (h : ∀ key, m.get? key = n.get? key) : m = n := by
  have hh : ∀ es fs : List (Text × α), es.map Prod.fst = fs.map Prod.fst →
      (es.map Prod.fst).Nodup → (∀ key, find? key es = find? key fs) → es = fs := by
    intro es
    induction es with
    | nil =>
      intro fs hks _ _
      exact (List.map_eq_nil_iff.mp hks.symm).symm
    | cons e es ih =>
      obtain ⟨k, v⟩ := e
      intro fs hks hnd hf
      obtain ⟨⟨k', v'⟩, fs, rfl, hkk, ht⟩ := List.map_eq_cons_iff.mp hks.symm
      cases hkk
      obtain ⟨hn, hnd⟩ := List.nodup_cons.mp hnd
      have hv : v = v' := by simpa [find?] using hf k
      have hrest : ∀ key, find? key es = find? key fs := by
        intro key
        by_cases he : k = key
        · -- neither rest holds the key of the head
          subst he
          rw [find?_eq_none_iff.mpr hn, eq_comm, find?_eq_none_iff, ht]
          exact hn
        · simpa [find?, he] using hf key
      rw [hv, ih fs ht.symm hnd hrest]
  exact ext (hh _ _ hk m.nodup_keys h)

/-! ### Updates -/

theorem eraseDups_eq_self {ks : List Text} (h : ks.Nodup) : ks.eraseDups = ks := by
  induction ks with
  | nil => rfl
  | cons k ks ih =>
    obtain ⟨hk, hn⟩ := List.nodup_cons.mp h
    have hf : ks.filter (fun a => !a == k) = ks := by
      refine List.filter_eq_self.mpr fun a ha => ?_
      have hne : a ≠ k := fun he => hk (he ▸ ha)
      simp [hne]
    rw [List.eraseDups_cons, hf, ih hn]

theorem filter_eraseDups (p : Text → Bool) (ks : List Text) :
    ks.eraseDups.filter p = (ks.filter p).eraseDups := by
  induction hn : ks.length using Nat.strongRecOn generalizing ks with
  | ind n ih =>
    cases ks with
    | nil => rfl
    | cons k ks =>
      have hl := List.length_filter_le (fun a => !a == k) ks
      have hlt : (ks.filter fun a => !a == k).length < n := by
        simp only [List.length_cons] at hn
        omega
      have hh := ih _ hlt _ rfl
      rw [List.eraseDups_cons]
      by_cases hp : p k = true
      · rw [List.filter_cons_of_pos hp, List.filter_cons_of_pos hp, List.eraseDups_cons, hh,
          List.filter_filter, List.filter_filter]
        simp only [Bool.and_comm]
      · -- what is left out with the key holds no copy of it
        have hf : (ks.filter fun a => !a == k).filter p = ks.filter p := by
          rw [List.filter_filter]
          refine List.filter_congr fun a _ => ?_
          by_cases ha : a = k <;> simp [ha, hp]
        rw [List.filter_cons_of_neg hp, List.filter_cons_of_neg hp, hh, hf]

/-- Keys that are held keep their place, and the others follow in their own order. -/
theorem keys_update (m n : OrderedMap α) :
    (m.update n).keys = m.keys ++ n.keys.filter fun k => decide (k ∉ m.keys) := by
  have hn : (n.keys.filter fun k => decide (k ∉ m.keys)).Nodup :=
    n.nodup_keys.sublist List.filter_sublist
  rw [update, keys_foldl_insert]
  exact congrArg (m.keys ++ ·) (eraseDups_eq_self hn)

theorem mem_keys_update {m n : OrderedMap α} {key : Text} :
    key ∈ (m.update n).keys ↔ key ∈ m.keys ∨ key ∈ n.keys := by
  rw [keys_update, List.mem_append, List.mem_filter, decide_eq_true_eq]
  by_cases h : key ∈ m.keys <;> simp [h]

theorem get?_update (m n : OrderedMap α) (key : Text) :
    (m.update n).get? key = (n.get? key).or (m.get? key) := by
  rw [update, get?_foldl_insert, ← get?_ofList, ofList_self]

theorem mem_entries_update {m n : OrderedMap α} {e : Text × α} :
    e ∈ (m.update n).entries ↔ e ∈ n.entries ∨ e ∈ m.entries ∧ e.1 ∉ n.keys := by
  rw [mem_entries_iff, mem_entries_iff, mem_entries_iff, get?_update, ← get?_eq_none_iff]
  cases n.get? e.1 <;> simp

/-- It makes no difference whether entries are collected first or written one by one. -/
theorem update_ofList (m : OrderedMap α) (es : List (Text × α)) :
    m.update (ofList es) = es.foldl (fun m e => m.insert e.1 e.2) m := by
  apply ext_get?
  · rw [keys_update, keys_foldl_insert, keys_ofList, filter_eraseDups]
  · intro key
    rw [get?_update, get?_foldl_insert, get?_ofList]

theorem ofList_append (es fs : List (Text × α)) :
    ofList (es ++ fs) = (ofList es).update (ofList fs) := by
  rw [update_ofList]
  exact List.foldl_append

/-! ### Entries of some keys -/

@[simp] theorem restrict_entries (p : Text → Bool) (m : OrderedMap α) :
    (m.restrict p).entries = m.entries.filter fun e => p e.1 := rfl

@[simp] theorem keys_restrict (p : Text → Bool) (m : OrderedMap α) :
    (m.restrict p).keys = m.keys.filter p := by
  simp [keys, List.filter_map, Function.comp_def]

theorem get?_restrict (p : Text → Bool) (m : OrderedMap α) (key : Text) :
    (m.restrict p).get? key = if p key then m.get? key else none := by
  apply Option.ext
  intro v
  have hm : (key, v) ∈ (m.restrict p).entries ↔ (key, v) ∈ m.entries ∧ p key = true :=
    List.mem_filter
  by_cases hp : p key = true
  · rw [if_pos hp]
    exact ⟨fun h => get?_of_mem (hm.mp (mem_of_get? h)).1,
      fun h => get?_of_mem (hm.mpr ⟨mem_of_get? h, hp⟩)⟩
  · rw [if_neg hp]
    exact ⟨fun h => absurd (hm.mp (mem_of_get? h)).2 hp, nofun⟩

theorem restrict_restrict (p q : Text → Bool) (m : OrderedMap α) :
    (m.restrict p).restrict q = m.restrict fun k => q k && p k := by
  apply ext
  simp [List.filter_filter]

theorem restrict_congr {p q : Text → Bool} {m : OrderedMap α} (h : ∀ k ∈ m.keys, p k = q k) :
    m.restrict p = m.restrict q := by
  apply ext
  exact List.filter_congr fun e he => h e.1 (List.mem_map_of_mem he)

/-- A write is not seen where its key is left out. -/
theorem restrict_insert_of_not {p : Text → Bool} {key : Text} (h : p key = false)
    (m : OrderedMap α) (v : α) : (m.insert key v).restrict p = m.restrict p := by
  have hw : ∀ es : List (Text × α),
      (write key v es).filter (fun e => p e.1) = es.filter fun e => p e.1 := by
    intro es
    induction es with
    | nil => simp [write, h]
    | cons e es ih =>
      by_cases he : e.1 = key
      · simp [write, he, h]
      · simp [write, he, ih, List.filter_cons]
  apply ext
  exact hw m.entries

theorem restrict_erase_of_not {p : Text → Bool} {key : Text} (h : p key = false)
    (m : OrderedMap α) : (m.erase key).restrict p = m.restrict p := by
  have he : m.erase key = m.restrict fun k => decide (k ≠ key) := rfl
  rw [he, restrict_restrict]
  refine restrict_congr fun k _ => ?_
  by_cases hk : k = key <;> simp [hk, h]

theorem restrict_eq_self {p : Text → Bool} {m : OrderedMap α} (h : ∀ k ∈ m.keys, p k = true) :
    m.restrict p = m := by
  apply ext
  exact List.filter_eq_self.mpr fun e he => h e.1 (List.mem_map_of_mem he)

end LayeredConfig.OrderedMap
