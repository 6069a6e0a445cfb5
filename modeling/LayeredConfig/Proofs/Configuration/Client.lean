import LayeredConfig.Proofs.Configuration.Presence
import LayeredConfig.Proofs.Store.Views

/-! What a client is given of a configuration: one layer with every key that begins like those of
a client, as the configuration has it. Keys are compared by how their text begins and not by whole
segments, so keys of a neighbouring space whose name begins alike come along. -/

namespace LayeredConfig.Store

theorem isPrefixOf_of_isWithin {space key : Text} (h : isWithin space key = true) :
    space.isPrefixOf key = true := by
  rw [List.isPrefixOf_iff_prefix]
  rcases isWithin_iff.mp h with rfl | ⟨rest, rfl⟩
  · exact List.prefix_rfl
  · exact List.prefix_append space _

theorem filter_isWithin_eq_iff {space : Text} {ks : List Text} :
    ks.filter (fun key => space.isPrefixOf key) = ks.filter (isWithin space) ↔
      ∀ key ∈ ks, space.isPrefixOf key = true → isWithin space key = true := by
  constructor
  · intro he key hk hp
    have hm : key ∈ ks.filter (isWithin space) := he ▸ List.mem_filter.mpr ⟨hk, hp⟩
    exact (List.mem_filter.mp hm).2
  · intro h
    refine List.filter_congr fun key hk => ?_
    exact Bool.eq_iff_iff.mpr ⟨h key hk, isPrefixOf_of_isWithin⟩

variable {s : Store}

/-- Copying some of the keys with their values one by one leaves these as the only layer. -/
theorem putAll_values (h : s.IsFilled) (p : Text → Bool) (isStrict : Bool) :
    (empty isStrict).putAll ((s.keys.filter p).map fun key => (key, s.value key)) =
      ⟨s.resolved.restrict p, [], isStrict⟩ := by
  have hn : ∀ e ∈ (s.keys.filter p).map fun key => (key, s.value key), e.2 ≠ .null := by
    rw [List.forall_mem_map]
    exact fun key hk => ((inSync_iff.mpr h).mem_keys_iff key).mp (List.mem_filter.mp hk).1
  have hk : (s.keys.filter p).Nodup := s.nodup_keys.sublist List.filter_sublist
  have he : OrderedMap.ofList ((s.keys.filter p).map fun key => (key, s.value key)) =
      s.resolved.restrict p := by
    apply OrderedMap.ext
    rw [OrderedMap.ofList_map_entries hk, OrderedMap.restrict_entries, resolved_entries,
      List.filter_map]
    rfl
  rw [putAll_eq hn, ← he]
  rfl

theorem clientStore_eq (h : s.IsFilled) : s.clientStore =
    ⟨s.resolved.restrict fun key => Setting.clientSpace.isPrefixOf key, [], false⟩ :=
  putAll_values h _ false

theorem keys_clientStore (h : s.IsFilled) :
    s.clientStore.keys = s.keys.filter fun key => Setting.clientSpace.isPrefixOf key := by
  rw [clientStore_eq h, keys_of_single rfl, OrderedMap.keys_restrict, keys_resolved]

theorem value_clientStore (h : s.IsFilled) {key : Text} (hk : key ∈ s.clientStore.keys) :
    s.clientStore.value key = s.value key := by
  rw [keys_clientStore h] at hk
  obtain ⟨hk, hp⟩ := List.mem_filter.mp hk
  have hm : (key, s.value key) ∈
      (s.resolved.restrict fun key => Setting.clientSpace.isPrefixOf key).entries := by
    rw [OrderedMap.restrict_entries, resolved_entries, List.mem_filter]
    exact ⟨List.mem_map_of_mem hk, hp⟩
  refine value_eq_of_find? ?_
  rw [clientStore_eq h, find?_of_single rfl, OrderedMap.get?_of_mem hm]

/-- One layer with the keys of the client's space, and no others, as another store has them. -/
structure IsClientPart (t s : Store) : Prop where
  layerCount : t.layerCount = 1
  keys : t.keys = s.keysWithin Setting.clientSpace
  value : ∀ key ∈ t.keys, t.value key = s.value key

/-- A client is given the keys of its own space alone exactly if no key of another space begins
with the same text. It is always one layer of the keys that begin so, with their values. -/
theorem clientStore_isClientPart_iff (hn : s.IsNullFree) :
    (s.clientStore.IsClientPart s ↔ ∀ key ∈ s.keys,
        Setting.clientSpace.isPrefixOf key = true → isWithin Setting.clientSpace key = true) ∧
      s.clientStore.layerCount = 1 ∧
      s.clientStore.keys = s.keys.filter (fun key => Setting.clientSpace.isPrefixOf key) ∧
      ∀ key ∈ s.clientStore.keys, s.clientStore.value key = s.value key := by
  have h := hn.isFilled
  have hl : s.clientStore.layerCount = 1 := by
    rw [clientStore_eq h]
    rfl
  have hv : ∀ key ∈ s.clientStore.keys, s.clientStore.value key = s.value key :=
    fun key hk => value_clientStore h hk
  refine ⟨⟨fun hp => ?_, fun hp => ⟨hl, ?_, hv⟩⟩, hl, keys_clientStore h, hv⟩
  · refine filter_isWithin_eq_iff.mp ?_
    rw [← keys_clientStore h, hp.keys, keysWithin]
  · rw [keys_clientStore h, keysWithin, filter_isWithin_eq_iff.mpr hp]

/-- A user set above an older one, a key that is the space itself, and a key elsewhere. -/
def spaced : Store :=
  ⟨.ofList [("io.fluo.client.accumulo.user", .text "new")],
    [.ofList [("io.fluo.worker.instances", .int 2), ("io.fluo.client", .int 1),
      ("io.fluo.client.accumulo.user", .text "old")]], true⟩

theorem spaced_isNullFree : spaced.IsNullFree := isNullFree_of_isNull (by decide +kernel)

theorem spaced_isClientPart : spaced.IsNullFree ∧ spaced.clientStore.IsClientPart spaced ∧
    spaced.clientStore.keys = ["io.fluo.client.accumulo.user", "io.fluo.client"] ∧
    spaced.clientStore.value "io.fluo.client.accumulo.user" = .text "new" := by
  obtain ⟨hiff, -, hk, hv⟩ := clientStore_isClientPart_iff spaced_isNullFree
  have hkeys : spaced.clientStore.keys = ["io.fluo.client.accumulo.user", "io.fluo.client"] :=
    hk.trans (by decide +kernel)
  refine ⟨spaced_isNullFree, hiff.mpr (by decide +kernel), hkeys, ?_⟩
  exact hv _ (by simp [hkeys])

/-- A key of another space that begins with the same text. -/
def neighboring : Store :=
  ⟨.empty, [.ofList [("io.fluo.client.accumulo.user", .text "u"),
    ("io.fluo.clients.token", .text "secret")]], true⟩

theorem neighboring_not_isClientPart : neighboring.IsNullFree ∧
    neighboring.keysWithin Setting.clientSpace = ["io.fluo.client.accumulo.user"] ∧
    neighboring.clientStore.keys = ["io.fluo.client.accumulo.user", "io.fluo.clients.token"] ∧
    ¬ neighboring.clientStore.IsClientPart neighboring := by
  have hw : neighboring.keysWithin Setting.clientSpace = ["io.fluo.client.accumulo.user"] := by
    decide +kernel
  have hk : neighboring.clientStore.keys =
      ["io.fluo.client.accumulo.user", "io.fluo.clients.token"] := by
    decide +kernel
  refine ⟨isNullFree_of_isNull (by decide +kernel), hw, hk, fun h => ?_⟩
  have he := h.keys
  rw [hk, hw] at he
  exact absurd (congrArg List.length he) (by decide)

end LayeredConfig.Store
