import LayeredConfig.Proofs.Configuration.Observers

/-! Offers that go wrong. The numbered observers are cleared before anything of the offer is
looked at, and what is good is written as it comes. So a failure leaves what an offer of the good
ones alone would have left, and nothing is undone. -/

namespace LayeredConfig.Store

/-- The offer gives these observers and then fails: nothing more comes, or what comes is none. -/
inductive Offer.FailsAfter : Offer → List Observer → Fault → Prop where
  | broken (os : List Observer) (fault : Fault) :
    FailsAfter ⟨os.map .observer, some fault⟩ os fault
  | stranger (os : List Observer) (typeName : Text) (rest : List Offered)
      (failure : Option Fault) :
    FailsAfter ⟨os.map .observer ++ .other typeName :: rest, failure⟩ os
      (.lacks typeName "parameters")

theorem Offer.FailsAfter.cons {items : List Offered} {failure : Option Fault}
    {os : List Observer} {fault : Fault} (o : Observer)
    (h : FailsAfter ⟨items, failure⟩ os fault) :
    FailsAfter ⟨.observer o :: items, failure⟩ (o :: os) fault := by
  cases h with
  | broken os fault => exact .broken (o :: os) fault
  | stranger os typeName rest failure => exact .stranger (o :: os) typeName rest failure

/-- The numbered keys are those of these observers, at the end of the top layer. -/
structure IsNumbered (s : Store) (os : List Observer) : Prop where
  written : ∃ kept, s.written.entries = kept ++ observerEntries 0 os ∧
    ∀ e ∈ kept, isObserverIndex e.1 = false
  sources : ∀ l ∈ s.sources, ∀ key ∈ l.keys, isObserverIndex key = false

variable {s s' : Store} {os : List Observer} {offer : Offer} {fault : Fault}

theorem putObservers_of_error {index : Nat} {items : List Offered} {failure : Option Fault}
    (h : s.putObservers index items failure = (s', .error fault)) :
    ∃ os, Offer.FailsAfter ⟨items, failure⟩ os fault ∧
      s.putObservers index (os.map .observer) none = (s', .ok ()) := by
  induction items generalizing s index with
  | nil =>
    cases failure with
    | none => cases (Prod.mk.inj h).2
    | some f =>
      obtain ⟨rfl, hf⟩ := Prod.mk.inj h
      obtain rfl := Except.error.inj hf
      exact ⟨[], .broken [] f, rfl⟩
  | cons item items ih =>
    cases item with
    | other typeName =>
      obtain ⟨rfl, hf⟩ := Prod.mk.inj h
      obtain rfl := Except.error.inj hf
      exact ⟨[], .stranger [] typeName items failure, rfl⟩
    | observer o =>
      rw [putObservers] at h
      obtain ⟨os, ho, hw⟩ := ih h
      exact ⟨o :: os, ho.cons o, hw⟩

theorem sources_restrict_iff {p : Text → Bool} {ls : List Layer} :
    ls.map (OrderedMap.restrict p) = ls ↔ ∀ l ∈ ls, ∀ key ∈ l.keys, p key = true := by
  constructor
  · intro h l hl key hk
    rw [← h] at hl
    obtain ⟨l', -, rfl⟩ := List.mem_map.mp hl
    rw [OrderedMap.keys_restrict] at hk
    exact (List.mem_filter.mp hk).2
  · intro h
    have he := List.map_congr_left fun l hl => OrderedMap.restrict_eq_self (h l hl)
    exact he.trans (List.map_id ls)

namespace IsRenumbered

theorem written_eq_iff (h : s.IsRenumbered os s') : s'.written = s.written ↔
    ∃ kept, s.written.entries = kept ++ observerEntries 0 os ∧
      ∀ e ∈ kept, isObserverIndex e.1 = false := by
  constructor
  · intro he
    refine ⟨_, (congrArg OrderedMap.entries he).symm.trans h.written, fun e hm => ?_⟩
    simpa using (List.mem_filter.mp hm).2
  · rintro ⟨kept, he, hk⟩
    have hf : kept.filter (fun e => !isObserverIndex e.1) = kept :=
      List.filter_eq_self.mpr fun e hm => by simp [hk e hm]
    apply OrderedMap.ext
    rw [h.written, he, List.filter_append, hf, filter_observerEntries,
      List.append_nil]

theorem layers_eq_iff (h : s.IsRenumbered os s') : s'.layers = s.layers ↔ s.IsNumbered os := by
  have hs : s'.sources = s.sources ↔
      ∀ l ∈ s.sources, ∀ key ∈ l.keys, isObserverIndex key = false := by
    rw [h.sources, sources_restrict_iff]
    simp
  rw [layers, layers, List.cons.injEq, h.written_eq_iff, hs]
  exact ⟨fun hn => ⟨hn.1, hn.2⟩, fun hn => ⟨hn.written, hn.sources⟩⟩

end IsRenumbered

/-- A failure is one of the offer, after some observers. The store is then left as these alone
leave it, which is as it was exactly if it held just them. -/
theorem replaceObservers_of_error (h : s.replaceObservers offer = (s', .error fault)) :
    ∃ os, offer.FailsAfter os fault ∧ s.replaceObservers (.ofList os) = (s', .ok ()) ∧
      s.IsRenumbered os s' ∧ (s'.layers = s.layers ↔ s.IsNumbered os) := by
  obtain ⟨os, ho, hw⟩ := putObservers_of_error h
  have hr : s.IsRenumbered os s' := by
    have hh := isRenumbered s os
    rwa [replaceObservers, Offer.ofList, hw] at hh
  exact ⟨os, ho, hw, hr, hr.layers_eq_iff⟩

/-- Old numbers in two layers are gone after one good observer and a number. -/
theorem stale_interrupted :
    let offer : Offer := ⟨[.observer ⟨"Indexer", .empty, by decide⟩, .other "int"], none⟩
    let s' := (stale.replaceObservers offer).1
    stale.replaceObservers offer = (s', .error (.lacks "int" "parameters")) ∧
      (∃ os, offer.FailsAfter os (.lacks "int" "parameters") ∧
        stale.replaceObservers (.ofList os) = (s', .ok ()) ∧
        stale.IsRenumbered os s' ∧ (s'.layers = stale.layers ↔ stale.IsNumbered os)) := by
  intro offer s'
  have he : stale.replaceObservers offer = (s', .error (.lacks "int" "parameters")) := rfl
  exact ⟨he, replaceObservers_of_error he⟩

def oneObserver : Store := ⟨.ofList [("io.fluo.observer.0", .text "A")], [], true⟩

/-- What cannot be gone through at all takes the observers away too. -/
theorem oneObserver_lost :
    oneObserver.replaceObservers ⟨[], some (.notIterable "int")⟩ =
        (.empty true, .error (.notIterable "int")) ∧
      (empty true).layers ≠ oneObserver.layers := by
  have hc : oneObserver.clearObservers = .empty true := by
    rw [clearObservers_eq]
    have hw : oneObserver.written.restrict (fun k => !isObserverIndex k) = .empty :=
      OrderedMap.ext rfl
    rw [mapLayers, hw]
    rfl
  constructor
  · rw [replaceObservers, hc]
    rfl
  · intro he
    have hk := congrArg (fun ls => ls.flatMap OrderedMap.keys) he
    cases hk

end LayeredConfig.Store
