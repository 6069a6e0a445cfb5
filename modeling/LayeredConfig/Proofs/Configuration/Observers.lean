import LayeredConfig.Configuration
import LayeredConfig.Proofs.Numeral
import LayeredConfig.Proofs.Observer
import LayeredConfig.Proofs.Store.Reads
import LayeredConfig.Proofs.Store.References

/-! New observers. They take the place of all numbered ones: these go from every layer, and the
new ones stand at the end of the top layer in their order. Nothing else moves, so what was there
before does not matter, and the new observers are read back. -/

namespace LayeredConfig.Store

/-! ### Numbered keys -/

theorem isPrefixOf_observerKey (index : Nat) :
    Setting.observerSpace.isPrefixOf (observerKey index) = true := by
  rw [observerKey, List.isPrefixOf_iff_prefix]
  exact List.prefix_append _ _

theorem isObserverIndex_iff {key : Text} : isObserverIndex key = true ↔
    ∃ index, index ≠ [] ∧ (∀ c ∈ index, c.isDecimalDigit = true) ∧
      key = Setting.observerSpace ++ index := by
  have hd (index : Text) : Text.dropPrefix? Setting.observerSpace key = some index ↔
      key = Setting.observerSpace ++ index := Text.dropPrefix?_eq_some_iff
  constructor
  · intro h
    cases he : Text.dropPrefix? Setting.observerSpace key with
    | none => simp [isObserverIndex, he] at h
    | some index =>
      cases index with
      | nil => simp [isObserverIndex, he] at h
      | cons c index =>
        rw [isObserverIndex, he] at h
        exact ⟨c :: index, List.cons_ne_nil c index, List.all_eq_true.mp h, (hd _).mp he⟩
  · rintro ⟨index, hn, hi, he⟩
    rw [isObserverIndex, (hd index).mpr he]
    cases index with
    | nil => exact absurd rfl hn
    | cons c index => exact List.all_eq_true.mpr hi

theorem isObserverIndex_observerKey (index : Nat) : isObserverIndex (observerKey index) = true := by
  have hd : ∀ d < 10, (CodePoint.digit d).isDecimalDigit = true := by decide
  exact isObserverIndex_iff.mpr
    ⟨Numeral.ofNat index, Numeral.ofNat_ne_nil index, Numeral.forall_mem_ofNat hd, rfl⟩

theorem observerKey_injective {m n : Nat} (h : observerKey m = observerKey n) : m = n :=
  Numeral.ofNat_injective (List.append_cancel_left h)

/-! ### Clearing -/

theorem mapLayers_congr {s : Store} {f g : Layer → Layer} (h : ∀ l ∈ s.layers, f l = g l) :
    s.mapLayers f = s.mapLayers g := by
  have hw := h s.written List.mem_cons_self
  have hs : s.sources.map f = s.sources.map g :=
    List.map_congr_left fun l hl => h l (List.mem_cons_of_mem _ hl)
  simp only [mapLayers, hw, hs]

theorem foldl_erase_eq (s : Store) (ks : List Text) :
    ks.foldl erase s = s.mapLayers (OrderedMap.restrict fun k => decide (k ∉ ks)) := by
  induction ks generalizing s with
  | nil =>
    have hh : (OrderedMap.restrict fun k => decide (k ∉ [])) = (id : Layer → Layer) :=
      funext fun l => OrderedMap.restrict_eq_self (by simp)
    simp only [hh, mapLayers, List.map_id, id, List.foldl_nil]
  | cons k ks ih =>
    have he (l : Layer) : (l.erase k).restrict (fun a => decide (a ∉ ks)) =
        l.restrict fun a => decide (a ∉ k :: ks) := by
      have hr : l.erase k = l.restrict fun a => decide (a ≠ k) := rfl
      rw [hr, OrderedMap.restrict_restrict]
      refine OrderedMap.restrict_congr fun a _ => ?_
      by_cases ha : a = k <;> simp [ha]
    rw [List.foldl_cons, ih]
    simp only [erase, mapLayers, List.map_map, Function.comp_def, he]

theorem clearObservers_eq (s : Store) :
    s.clearObservers = s.mapLayers (OrderedMap.restrict fun k => !isObserverIndex k) := by
  rw [clearObservers, foldl_erase_eq]
  refine mapLayers_congr fun l hl => OrderedMap.restrict_congr fun k hk => ?_
  -- the keys that are cleared are those of all layers, this one included
  have hm : k ∈ s.keys := by
    rw [mem_keys_iff, contains, List.any_eq_true]
    exact ⟨l, hl, OrderedMap.contains_iff.mpr hk⟩
  simp [hm]

/-! ### Writing -/

def Offer.ofList (os : List Observer) : Offer := ⟨os.map .observer, none⟩

/-- The entries of observers that are numbered from an index on. -/
def observerEntries (index : Nat) (os : List Observer) : List (Text × Value) :=
  (os.zipIdx index).map fun e => (observerKey e.2, .text e.1.encode)

theorem keys_observerEntries (index : Nat) (os : List Observer) :
    (observerEntries index os).map Prod.fst = (List.range' index os.length).map observerKey := by
  rw [← List.zipIdx_map_snd index os, observerEntries, List.map_map, List.map_map]
  rfl

theorem mem_keys_observerEntries {index : Nat} {os : List Observer} {key : Text} :
    key ∈ (observerEntries index os).map Prod.fst ↔
      ∃ i, index ≤ i ∧ i < index + os.length ∧ key = observerKey i := by
  rw [keys_observerEntries, List.mem_map]
  constructor
  · rintro ⟨i, hi, rfl⟩
    have hr := List.mem_range'_1.mp hi
    exact ⟨i, hr.1, hr.2, rfl⟩
  · rintro ⟨i, hl, hu, rfl⟩
    exact ⟨i, List.mem_range'_1.mpr ⟨hl, hu⟩, rfl⟩

theorem nodup_keys_observerEntries (index : Nat) (os : List Observer) :
    ((observerEntries index os).map Prod.fst).Nodup := by
  rw [keys_observerEntries]
  exact List.Nodup.map (fun _ _ h => observerKey_injective h) List.nodup_range'

theorem isObserverIndex_of_mem_observerEntries {index : Nat} {os : List Observer}
    {e : Text × Value} (h : e ∈ observerEntries index os) : isObserverIndex e.1 = true := by
  obtain ⟨i, -, -, hi⟩ := mem_keys_observerEntries.mp (List.mem_map_of_mem h)
  rw [hi]
  exact isObserverIndex_observerKey i

theorem filter_observerEntries (index : Nat) (os : List Observer) :
    (observerEntries index os).filter (fun e => !isObserverIndex e.1) = [] := by
  refine List.filter_eq_nil_iff.mpr fun e he => ?_
  simp [isObserverIndex_of_mem_observerEntries he]

theorem putObservers_eq (s : Store) (index : Nat) (os : List Observer) :
    s.putObservers index (os.map .observer) none =
      (s.putAll (observerEntries index os), .ok ()) := by
  induction os generalizing s index with
  | nil => rfl
  | cons o os ih =>
    rw [List.map_cons, putObservers, ih]
    rfl

theorem replaceObservers_eq (s : Store) (os : List Observer) :
    s.replaceObservers (.ofList os) =
      ({ s.mapLayers (OrderedMap.restrict fun k => !isObserverIndex k) with
          written := (observerEntries 0 os).foldl (fun l e => l.insert e.1 e.2)
            (s.written.restrict fun k => !isObserverIndex k) }, .ok ()) := by
  have hn : ∀ e ∈ observerEntries 0 os, e.2 ≠ .null := by
    intro e he
    obtain ⟨x, -, rfl⟩ := List.mem_map.mp he
    exact nofun
  rw [replaceObservers, Offer.ofList, putObservers_eq, clearObservers_eq, putAll_eq hn]
  rfl

/-- What a store holds once its numbered observers are replaced. -/
structure IsRenumbered (s : Store) (os : List Observer) (s' : Store) : Prop where
  written : s'.written.entries =
    (s.written.entries.filter fun e => !isObserverIndex e.1) ++ observerEntries 0 os
  sources : s'.sources = s.sources.map (OrderedMap.restrict fun k => !isObserverIndex k)
  isStrict : s'.isStrict = s.isStrict
  contains_iff {index : Text} (hn : index ≠ []) (hd : ∀ c ∈ index, c.isDecimalDigit = true) :
    s'.contains (Setting.observerSpace ++ index) = true ↔
      ∃ i < os.length, index = Numeral.ofNat i

variable {s s' : Store} {os : List Observer} {env : Environment}

theorem written_replaceObservers (s : Store) (os : List Observer) :
    (s.replaceObservers (.ofList os)).1.written.entries =
      (s.written.entries.filter fun e => !isObserverIndex e.1) ++ observerEntries 0 os := by
  let kept : Layer := s.written.restrict fun k => !isObserverIndex k
  have hd : (kept.keys ++ (observerEntries 0 os).map Prod.fst).Nodup := by
    refine List.nodup_append.mpr ⟨kept.nodup_keys, nodup_keys_observerEntries 0 os, ?_⟩
    rintro a ha b hb rfl
    obtain ⟨e, he, rfl⟩ := List.mem_map.mp hb
    have hi := isObserverIndex_of_mem_observerEntries he
    simp [kept, hi] at ha
  rw [replaceObservers_eq]
  exact OrderedMap.foldl_insert_entries hd

theorem sources_replaceObservers (s : Store) (os : List Observer) :
    (s.replaceObservers (.ofList os)).1.sources =
      s.sources.map (OrderedMap.restrict fun k => !isObserverIndex k) := by
  rw [replaceObservers_eq]
  rfl

theorem isRenumbered (s : Store) (os : List Observer) :
    s.IsRenumbered os (s.replaceObservers (.ofList os)).1 where
  written := written_replaceObservers s os
  sources := sources_replaceObservers s os
  isStrict := by
    rw [replaceObservers_eq]
    rfl
  contains_iff {index} hn hd := by
    have hi : isObserverIndex (Setting.observerSpace ++ index) = true :=
      isObserverIndex_iff.mpr ⟨index, hn, hd, rfl⟩
    have hk : Setting.observerSpace ++ index ∈ (observerEntries 0 os).map Prod.fst ↔
        ∃ i < os.length, index = Numeral.ofNat i := by
      rw [mem_keys_observerEntries]
      simp [observerKey]
    rw [← hk, contains, List.any_eq_true]
    simp only [OrderedMap.contains_iff]
    constructor
    · rintro ⟨l, hl, hm⟩
      rcases List.mem_cons.mp hl with rfl | hl
      · rw [OrderedMap.keys, written_replaceObservers, List.map_append, List.mem_append] at hm
        refine hm.resolve_left fun hf => ?_
        obtain ⟨e, he, hke⟩ := List.mem_map.mp hf
        have hnot := (List.mem_filter.mp he).2
        simp [hke, hi] at hnot
      · rw [sources_replaceObservers] at hl
        obtain ⟨l', -, rfl⟩ := List.mem_map.mp hl
        simp [hi] at hm
    · intro hm
      refine ⟨_, List.mem_cons_self, ?_⟩
      rw [OrderedMap.keys, written_replaceObservers, List.map_append]
      exact List.mem_append_right _ hm

namespace IsRenumbered

theorem clearObservers (h : s.IsRenumbered os s') : s'.clearObservers = s.clearObservers := by
  have hw : s'.written.restrict (fun k => !isObserverIndex k) =
      s.written.restrict fun k => !isObserverIndex k := by
    apply OrderedMap.ext
    rw [OrderedMap.restrict_entries, h.written, List.filter_append, filter_observerEntries,
      List.append_nil, List.filter_filter]
    simp
  have hs : s'.sources.map (OrderedMap.restrict fun k => !isObserverIndex k) =
      s.sources.map (OrderedMap.restrict fun k => !isObserverIndex k) := by
    rw [h.sources, List.map_map]
    refine List.map_congr_left fun l _ => ?_
    rw [Function.comp, OrderedMap.restrict_restrict]
    simp
  rw [clearObservers_eq, clearObservers_eq, mapLayers, mapLayers, hw, hs, h.isStrict]

/-! ### Reading back -/

/-- Without other keys of observers, those of the new ones are all and come in their order. -/
theorem filter_keys (h : s.IsRenumbered os s')
    (ho : ∀ key, s.contains key = true → Setting.observerSpace.isPrefixOf key = true →
      isObserverIndex key = true) :
    s'.keys.filter (fun k => Setting.observerSpace.isPrefixOf k) =
      (observerEntries 0 os).map Prod.fst := by
  have hold {l : Layer} (hl : l ∈ s.layers) :
      (l.keys.filter fun k => !isObserverIndex k).filter
        (fun k => Setting.observerSpace.isPrefixOf k) = [] := by
    refine List.filter_eq_nil_iff.mpr fun k hk hp => ?_
    obtain ⟨hk, hn⟩ := List.mem_filter.mp hk
    have hc : s.contains k = true :=
      List.any_eq_true.mpr ⟨l, hl, OrderedMap.contains_iff.mpr hk⟩
    simp [ho k hc hp] at hn
  have hw : s'.written.keys.filter (fun k => Setting.observerSpace.isPrefixOf k) =
      (observerEntries 0 os).map Prod.fst := by
    have hk : s'.written.keys = (s.written.keys.filter fun k => !isObserverIndex k) ++
        (observerEntries 0 os).map Prod.fst := by
      simp [OrderedMap.keys, h.written, List.filter_map, Function.comp_def]
    have hnew : ((observerEntries 0 os).map Prod.fst).filter
        (fun k => Setting.observerSpace.isPrefixOf k) = (observerEntries 0 os).map Prod.fst := by
      refine List.filter_eq_self.mpr fun k hk => ?_
      obtain ⟨i, -, -, rfl⟩ := mem_keys_observerEntries.mp hk
      exact isPrefixOf_observerKey i
    rw [hk, List.filter_append, hold List.mem_cons_self, hnew, List.nil_append]
  have hs : (s'.sources.flatMap fun l =>
      l.keys.filter fun k => Setting.observerSpace.isPrefixOf k) = [] := by
    rw [h.sources, List.flatMap_eq_nil_iff]
    intro l hl
    obtain ⟨l', hl', rfl⟩ := List.mem_map.mp hl
    rw [OrderedMap.keys_restrict, hold (List.mem_cons_of_mem _ hl')]
  rw [Store.filter_keys, layers, List.flatMap_cons, hw, hs, List.append_nil]
  exact unseen_of_nodup (nodup_keys_observerEntries 0 os) (by simp)

theorem value_observerKey (h : s.IsRenumbered os s') {o : Observer} {i : Nat}
    (hm : (o, i) ∈ os.zipIdx) : s'.value (observerKey i) = .text o.encode := by
  have he : (observerKey i, .text o.encode) ∈ s'.written.entries := by
    rw [h.written]
    exact List.mem_append_right _ (List.mem_map.mpr ⟨(o, i), hm, rfl⟩)
  refine value_eq_of_find? ?_
  rw [find?, layers, findIn, OrderedMap.get?_of_mem he]

end IsRenumbered

theorem observer_of_getText {key t : Text} (h : s.getText env key none = .ok (some t)) :
    s.observer env key = Observer.decode key t := by
  rw [observer, h]
  rfl

theorem observer_of_text {key t : Text} (h : s.value key = .text t) :
    s.observer env key = s.interpolate env t >>= Observer.decode key := by
  rw [observer, getText_of_text h]
  cases s.interpolate env t <;> rfl

theorem IsRenumbered.observers (h : s.IsRenumbered os s')
    (ho : ∀ key, s.contains key = true → Setting.observerSpace.isPrefixOf key = true →
      isObserverIndex key = true)
    (hr : ∀ o ∈ os, o.encode.trim = o.encode ∧ s'.interpolate env o.encode = .ok o.encode) :
    s'.observers env = .ok os := by
  have hone : ∀ e ∈ os.zipIdx,
      (s'.observer env ∘ fun e : Observer × Nat => observerKey e.2) e = pure e.1 := by
    intro e he
    obtain ⟨ht, hi⟩ := hr e.1 (List.fst_mem_of_mem_zipIdx he)
    rw [Function.comp, observer_of_text (h.value_observerKey he), hi]
    exact Observer.decode_encode_of_trim ht _
  have hk : (observerEntries 0 os).map Prod.fst = os.zipIdx.map fun e => observerKey e.2 := by
    simp [observerEntries]
  rw [Store.observers, h.filter_keys ho, hk, List.mapM_map, mapM_eq_pure_map hone,
    List.zipIdx_map_fst]
  rfl

/-- Replacing observers forgets those from before, leaves all else in its place, and is read back
where no other keys of observers are held and the texts read as they are written. -/
theorem replaceObservers_ofList (s : Store) (a b : List Observer) :
    (s.replaceObservers (.ofList a)).1.replaceObservers (.ofList b) =
        s.replaceObservers (.ofList b) ∧
      (s.replaceObservers (.ofList b)).2 = .ok () ∧
      s.IsRenumbered b (s.replaceObservers (.ofList b)).1 ∧
      ∀ env, (∀ key, s.contains key = true → Setting.observerSpace.isPrefixOf key = true →
          isObserverIndex key = true) →
        (∀ o ∈ b, o.encode.trim = o.encode ∧
          (s.replaceObservers (.ofList b)).1.interpolate env o.encode = .ok o.encode) →
        (s.replaceObservers (.ofList b)).1.observers env = .ok b := by
  have hb := isRenumbered s b
  refine ⟨?_, ?_, hb, fun env ho hr => hb.observers ho hr⟩
  · rw [replaceObservers, (isRenumbered s a).clearObservers, ← replaceObservers]
  · rw [replaceObservers_eq]

/-! Old numbers may be written in any way and lie in any layer. -/

def stale : Store :=
  ⟨.ofList [("io.fluo.observer.007", .text "Old"), ("k", .int 1)],
    [.ofList [("io.fluo.observer.3", .text "Covered"), ("io.fluo.observer.٣", .text "Other")]],
    true⟩

def elevenObservers : List Observer :=
  List.replicate 11 ⟨"Indexer", .ofList [("depth", "2")], by decide⟩

theorem isObserverIndex_of_stale : ∀ key, stale.contains key = true →
    Setting.observerSpace.isPrefixOf key = true → isObserverIndex key = true := by
  have hh : ∀ key ∈ stale.keys,
      Setting.observerSpace.isPrefixOf key = true → isObserverIndex key = true := by
    decide +kernel
  exact fun key hc => hh key (mem_keys_iff.mpr hc)

theorem elevenObservers_readable (s : Store) (env : Environment) : ∀ o ∈ elevenObservers,
    o.encode.trim = o.encode ∧ s.interpolate env o.encode = .ok o.encode := by
  intro o ho
  obtain rfl := List.eq_of_mem_replicate ho
  exact ⟨by decide, interpolate_of_isLiteral (Text.isLiteral_of_not_mem (by decide))⟩

theorem observers_stale_replaced :
    ((∀ key, stale.contains key = true → Setting.observerSpace.isPrefixOf key = true →
        isObserverIndex key = true) ∧
      ∀ o ∈ elevenObservers, o.encode.trim = o.encode ∧
        (stale.replaceObservers (.ofList elevenObservers)).1.interpolate [] o.encode =
          .ok o.encode) ∧
      (stale.replaceObservers (.ofList [])).1.replaceObservers (.ofList elevenObservers) =
        stale.replaceObservers (.ofList elevenObservers) ∧
      stale.IsRenumbered elevenObservers
        (stale.replaceObservers (.ofList elevenObservers)).1 ∧
      (stale.replaceObservers (.ofList elevenObservers)).1.observers [] =
        .ok elevenObservers := by
  have hr := elevenObservers_readable (stale.replaceObservers (.ofList elevenObservers)).1 []
  obtain ⟨hw, -, hn, ho⟩ := replaceObservers_ofList stale [] elevenObservers
  exact ⟨⟨isObserverIndex_of_stale, hr⟩, hw, hn, ho [] isObserverIndex_of_stale hr⟩

end LayeredConfig.Store
