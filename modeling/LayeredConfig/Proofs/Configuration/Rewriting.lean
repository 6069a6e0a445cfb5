import LayeredConfig.Proofs.Configuration.Observers
import LayeredConfig.Proofs.Observer.Grammar

/-! Observers that were read and are written again. What was read begins without a blank, so its
text survives if it ends without one too, which only a repeated parameter can prevent. Keys that
have no number are not replaced but are read, so it takes the absence of such keys to read the same
list again. -/

namespace LayeredConfig

namespace Observer

variable {key t name : Text} {es : List (Text × Text)} {o : Observer}

/-- The value of the last parameter, if there is one, does not end in a blank. -/
def EndsBare (o : Observer) : Prop :=
  ∀ e ∈ o.parameters.entries.getLast?, ∀ c ∈ e.2.getLast?, c.isBlank = false

instance (o : Observer) : Decidable o.EndsBare :=
  inferInstanceAs (Decidable (∀ e ∈ o.parameters.entries.getLast?, ∀ c ∈ e.2.getLast?,
    c.isBlank = false))

theorem getLast?_encode {e : Text × Text} (he : o.parameters.entries.getLast? = some e) :
    o.encode.getLast? = e.2.getLast? := by
  obtain ⟨front, hf⟩ := List.getLast?_eq_some_iff.mp he
  have hv : e.2 ≠ [] := value_ne_nil (o := o) (by simp [hf])
  rw [encode, hf, encodeParameters_append_singleton, ← List.append_assoc,
    List.getLast?_append_of_ne_nil _ hv]

theorem encode_eq_trim (hw : IsWritten t o.className es) (he : o.parameters.entries = es) :
    o.encode = t.trim := by
  rw [encode, he, hw.trim]

/-- The text of an observer that was read has no blanks at its ends if it has none at the last. -/
theorem trim_encode_iff_of_decode (h : decode key t = .ok o) :
    o.encode.trim = o.encode ↔ o.EndsBare := by
  obtain ⟨es, hw, hp⟩ := exists_isWritten_of_decode h
  have hhead : ∀ c ∈ o.encode.head?, c.isBlank = false := by
    have hh := Text.head?_trim t
    rw [hw.trim, List.head?_append_of_ne_nil _ o.className_ne_nil] at hh
    rwa [encode, List.head?_append_of_ne_nil _ o.className_ne_nil]
  rw [Text.trim_eq_self_iff, and_iff_right hhead, EndsBare]
  cases he : o.parameters.entries.getLast? with
  | some e => simp [getLast?_encode he]
  | none =>
    -- without parameters the text is what was read
    have hnil : o.parameters.entries = [] := List.getLast?_eq_none_iff.mp he
    have hes : es = [] := by
      rw [← List.map_eq_nil_iff (f := Prod.fst), List.eq_nil_iff_forall_not_mem]
      intro k hk
      rw [← OrderedMap.mem_keys_ofList, ← hp, OrderedMap.keys, hnil] at hk
      exact absurd hk List.not_mem_nil
    simpa [encode_eq_trim hw (hnil.trans hes.symm)] using Text.getLast?_trim t

theorem endsBare_of_nodup (h : decode key t = .ok o) (hw : IsWritten t name es)
    (hn : (es.map Prod.fst).Nodup) : o.EndsBare := by
  obtain ⟨rfl, hp⟩ := hw.decode_eq_ok_iff.mp h
  have he : o.parameters.entries = es := by rw [hp, OrderedMap.ofList_entries hn]
  rw [← trim_encode_iff_of_decode h, encode_eq_trim hw he, Text.trim_trim]

end Observer

namespace Store

variable {s s' : Store} {env : Environment} {os : List Observer}

theorem exists_decode_of_observer {key : Text} {o : Observer} (h : s.observer env key = .ok o) :
    ∃ t, Observer.decode key t = .ok o := by
  obtain ⟨t?, -, hd⟩ := Except.bind_eq_ok_iff.mp h
  cases t? with
  | none => exact nomatch hd
  | some t => exact ⟨t, hd⟩

theorem exists_decode_of_observers (h : s.observers env = .ok os) :
    ∀ o ∈ os, ∃ key t, Observer.decode key t = .ok o := by
  intro o ho
  obtain ⟨key, -, hk⟩ := exists_of_mem_mapM h ho
  exact ⟨key, exists_decode_of_observer hk⟩

/-! ### Keys without a number -/

theorem IsRenumbered.contains_of_not_isObserverIndex (h : s.IsRenumbered os s') {key : Text}
    (hc : s.contains key = true) (hn : isObserverIndex key = false) : s'.contains key = true := by
  obtain ⟨l, hl, hk⟩ := List.any_eq_true.mp hc
  rw [OrderedMap.contains_iff] at hk
  have hr : key ∈ (l.restrict fun k => !isObserverIndex k).keys := by simp [hk, hn]
  rw [contains, List.any_eq_true]
  rcases List.mem_cons.mp hl with rfl | hl
  · refine ⟨s'.written, List.mem_cons_self, OrderedMap.contains_iff.mpr ?_⟩
    rw [OrderedMap.keys, h.written, List.map_append]
    exact List.mem_append_left _ hr
  · refine ⟨_, List.mem_cons_of_mem _ ?_, OrderedMap.contains_iff.mpr hr⟩
    rw [h.sources]
    exact List.mem_map_of_mem hl

theorem IsRenumbered.observerKeys_subset (h : s.IsRenumbered os s') :
    (observerEntries 0 os).map Prod.fst ⊆
      s'.keys.filter fun k => Setting.observerSpace.isPrefixOf k := by
  intro k hk
  obtain ⟨i, -, -, rfl⟩ := mem_keys_observerEntries.mp hk
  have hm : observerKey i ∈ s'.written.keys := by
    rw [OrderedMap.keys, h.written, List.map_append]
    exact List.mem_append_right _ hk
  have hc : s'.contains (observerKey i) = true :=
    List.any_eq_true.mpr ⟨s'.written, List.mem_cons_self, OrderedMap.contains_iff.mpr hm⟩
  exact List.mem_filter.mpr ⟨mem_keys_iff.mpr hc, isPrefixOf_observerKey i⟩

/-- If no more observers are read than were written, only theirs are the keys of observers. -/
theorem IsRenumbered.isObserverIndex_of_length (h : s.IsRenumbered os s')
    {os' : List Observer} (hr : s'.observers env = .ok os') (hl : os'.length = os.length) :
    ∀ key, s.contains key = true → Setting.observerSpace.isPrefixOf key = true →
      isObserverIndex key = true := by
  intro key hc hp
  by_contra hn
  have hs := List.subperm_of_subset (nodup_keys_observerEntries 0 os) h.observerKeys_subset
  have hle : (s'.keys.filter fun k => Setting.observerSpace.isPrefixOf k).length ≤
      ((observerEntries 0 os).map Prod.fst).length := by
    rw [← length_of_mapM hr, hl, keys_observerEntries, List.length_map, List.length_range']
  have hc' := h.contains_of_not_isObserverIndex hc (Bool.eq_false_iff.mpr hn)
  have hm : key ∈ (observerEntries 0 os).map Prod.fst :=
    (hs.perm_of_length_le hle).mem_iff.mpr (List.mem_filter.mpr ⟨mem_keys_iff.mpr hc', hp⟩)
  obtain ⟨e, he, rfl⟩ := List.mem_map.mp hm
  exact hn (isObserverIndex_of_mem_observerEntries he)

/-- An observer that was read is read again from its own text if that ends without a blank, as it
does where no parameter is repeated. A list of such observers is read again exactly if no other
keys of observers are held than the numbered ones, which are replaced. -/
theorem observers_rewritten :
    (∀ key t o, Observer.decode key t = .ok o →
      (o.EndsBare → Observer.decode key o.encode = .ok o) ∧
        ∀ name es, Observer.IsWritten t name es → (es.map Prod.fst).Nodup → o.EndsBare) ∧
    ∀ (s : Store) (env : Environment) (os : List Observer), s.observers env = .ok os →
      (∀ o ∈ os, o.EndsBare ∧
        (s.replaceObservers (.ofList os)).1.interpolate env o.encode = .ok o.encode) →
      (s.replaceObservers (.ofList os)).2 = .ok () ∧
        ((s.replaceObservers (.ofList os)).1.observers env = .ok os ↔
          ∀ key, s.contains key = true → Setting.observerSpace.isPrefixOf key = true →
            isObserverIndex key = true) := by
  refine ⟨fun key t o hd => ⟨fun hb => ?_, fun name es => ?_⟩, fun s env os hos hr => ⟨?_, ?_, ?_⟩⟩
  · exact Observer.decode_encode_of_trim ((Observer.trim_encode_iff_of_decode hd).mpr hb) key
  · exact Observer.endsBare_of_nodup hd
  · rw [replaceObservers_eq]
  · exact fun h => (isRenumbered s os).isObserverIndex_of_length h rfl
  · intro ho
    refine (isRenumbered s os).observers ho fun o hm => ?_
    obtain ⟨key, t, hd⟩ := exists_decode_of_observers hos o hm
    exact ⟨(Observer.trim_encode_iff_of_decode hd).mpr (hr o hm).1, (hr o hm).2⟩

/-! Numbers in any order and layer are fine, and a repeated parameter may be. -/

def scattered : Store :=
  ⟨.ofList [("io.fluo.observer.10", .text " A ")],
    [.ofList [("io.fluo.observer.7", .text "B,k=1,j=x y,k=2")]], true⟩

/-- What is read from the text at the key with number 7. -/
def mergedObserver : Observer := ⟨"B", .ofList [("k", "2"), ("j", "x y")], by decide⟩

def scatteredObservers : List Observer := [⟨"A", .empty, by decide⟩, mergedObserver]

theorem observer_of_isLiteral {key t : Text} (h : s.value key = .text t) (hl : t.IsLiteral) :
    s.observer env key = Observer.decode key t := by
  rw [observer_of_text h, interpolate_of_isLiteral hl]
  rfl

theorem isObserverIndex_of_scattered : ∀ key, scattered.contains key = true →
    Setting.observerSpace.isPrefixOf key = true → isObserverIndex key = true := by
  have hh : ∀ key ∈ scattered.keys,
      Setting.observerSpace.isPrefixOf key = true → isObserverIndex key = true := by
    decide +kernel
  exact fun key hc => hh key (mem_keys_iff.mpr hc)

theorem observers_scattered : scattered.observers [] = .ok scatteredObservers := by
  have ha : scattered.observer [] "io.fluo.observer.10" = .ok ⟨"A", .empty, by decide⟩ := by
    rw [observer_of_isLiteral (t := " A ") rfl (Text.isLiteral_of_not_mem (by decide))]
    rfl
  have hb : scattered.observer [] "io.fluo.observer.7" = .ok mergedObserver := by
    rw [observer_of_isLiteral (t := "B,k=1,j=x y,k=2") rfl (Text.isLiteral_of_not_mem (by decide))]
    rfl
  have hk : scattered.observers [] =
      [("io.fluo.observer.10" : Text), "io.fluo.observer.7"].mapM (scattered.observer []) := rfl
  rw [hk, List.mapM_cons, List.mapM_cons, ha, hb]
  rfl

theorem scattered_rewritten : (Observer.decode "p" "B,k=1,j=x y,k=2" = .ok mergedObserver ∧
      mergedObserver.EndsBare ∧ Observer.decode "p" mergedObserver.encode = .ok mergedObserver) ∧
    scattered.observers [] = .ok scatteredObservers ∧
    (∀ o ∈ scatteredObservers, o.EndsBare ∧
      (scattered.replaceObservers (.ofList scatteredObservers)).1.interpolate [] o.encode =
        .ok o.encode) ∧
    (scattered.replaceObservers (.ofList scatteredObservers)).1.observers [] =
      .ok scatteredObservers := by
  have hr : ∀ o ∈ scatteredObservers, o.EndsBare ∧
      (scattered.replaceObservers (.ofList scatteredObservers)).1.interpolate [] o.encode =
        .ok o.encode := by
    have hb : ∀ o ∈ scatteredObservers, o.EndsBare ∧ .scalar '$' ∉ o.encode := by decide
    exact fun o ho =>
      ⟨(hb o ho).1, interpolate_of_isLiteral (Text.isLiteral_of_not_mem (hb o ho).2)⟩
  have hd : Observer.decode "p" "B,k=1,j=x y,k=2" = .ok mergedObserver := rfl
  have hb : mergedObserver.EndsBare := by decide
  have hs := (observers_rewritten.2 _ _ _ observers_scattered hr).2
  exact ⟨⟨hd, hb, (observers_rewritten.1 _ _ _ hd).1 hb⟩, observers_scattered, hr,
    hs.mpr isObserverIndex_of_scattered⟩

/-! A key without a number is kept, and its observer comes twice. A repeated parameter that moves
to the end may lose a blank there. -/

def unnumbered : Store := ⟨.empty, [.ofList [("io.fluo.observer.extra", .text "X")]], true⟩

def extraObserver : Observer := ⟨"X", .empty, by decide⟩

theorem unnumbered_replaced : (unnumbered.replaceObservers (.ofList [extraObserver])).1 =
    ⟨.ofList [("io.fluo.observer.0", .text "X")], unnumbered.sources, true⟩ := by
  have hk : observerKey 0 = "io.fluo.observer.0" := by
    rw [observerKey, Numeral.ofNat_eq]
    rfl
  have he : observerEntries 0 [extraObserver] = [(observerKey 0, .text "X")] := rfl
  rw [replaceObservers_eq, he, hk]
  rfl

theorem unnumbered_rewritten_ne :
    (unnumbered.observers [] = .ok [extraObserver] ∧
      (unnumbered.replaceObservers (.ofList [extraObserver])).1.observers [] =
        .ok [extraObserver, extraObserver]) ∧
    ∃ o o', Observer.decode "p" Observer.repeated = .ok o ∧
      Observer.decode "p" o.encode = .ok o' ∧ ¬ o'.Matches o := by
  have hx {s : Store} {key : Text} (hv : s.value key = .text "X") :
      s.observer [] key = .ok extraObserver := by
    rw [observer_of_isLiteral hv (Text.isLiteral_of_not_mem (by decide))]
    rfl
  refine ⟨⟨?_, ?_⟩, ?_⟩
  · have hk : unnumbered.observers [] =
      [("io.fluo.observer.extra" : Text)].mapM (unnumbered.observer []) := rfl
    rw [hk, List.mapM_cons, hx rfl]
    rfl
  · rw [unnumbered_replaced]
    let s : Store := ⟨.ofList [("io.fluo.observer.0", .text "X")], unnumbered.sources, true⟩
    have hk : s.observers [] =
        [("io.fluo.observer.0" : Text), "io.fluo.observer.extra"].mapM (s.observer []) := rfl
    rw [hk, List.mapM_cons, List.mapM_cons, hx rfl, hx rfl]
    rfl
  · refine ⟨⟨"A", .ofList [("k", "2"), ("j", "x ")], by decide⟩,
      ⟨"A", .ofList [("k", "2"), ("j", "x")], by decide⟩, rfl, rfl, ?_⟩
    exact fun hm => absurd (hm.2 "j") (by decide)

end Store

end LayeredConfig
