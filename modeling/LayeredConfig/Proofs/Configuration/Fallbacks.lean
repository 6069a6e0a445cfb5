import LayeredConfig.Proofs.Configuration.Copy
import LayeredConfig.Proofs.Configuration.Defaults

/-! Two ways to supply values for keys that are not set. Defaults that are written one by one, in
whatever order, and a layer put below all others show the same under each key, so the two stores
agree: a reference that could not be resolved before finds the same value in both. -/

namespace LayeredConfig.Store

variable {s : Store} {m : OrderedMap Value} {es : List (Text × Value)} {key : Text}

@[simp] theorem isStrict_putDefault (s : Store) (k : Text) (v : Value) :
    (s.putDefault k v).isStrict = s.isStrict := by
  rw [putDefault]
  split_ifs
  · exact isStrict_put s k v
  · rfl

theorem isStrict_after_putDefault (s : Store) (es : List (Text × Value)) :
    (s.after (es.map fun e => .putDefault e.1 e.2)).isStrict = s.isStrict := by
  induction es generalizing s with
  | nil => rfl
  | cons e es ih =>
    have hh : (Change.putDefault e.1 e.2).apply s = s.putDefault e.1 e.2 := rfl
    rw [List.map_cons, after_cons, hh, ih, isStrict_putDefault]

theorem IsFilled.isNull_value_iff (h : s.IsFilled) :
    (s.value key).isNull = true ↔ s.find? key = none := by
  rw [isNull_iff, value]
  cases hf : s.find? key with
  | none => simp
  | some v =>
    have hv : v ≠ .null := fun hv => h key (hv ▸ hf)
    simp [hv]

/-- Each key is looked up in the store first and then among the defaults, which is the order of
the layers where the defaults are a layer of their own. -/
theorem after_putDefault_agrees (h : s.IsFilled) (hm : ∀ e ∈ m.entries, e.2 ≠ .null)
    (hp : es.Perm m.entries) :
    (s.after (es.map fun e => .putDefault e.1 e.2)).Agrees (s.addLayer m) where
  isStrict := by rw [isStrict_after_putDefault, isStrict_addLayer]
  find? key := by
    have he : ∀ e ∈ es, e.2 ≠ .null := fun e he => hm e (hp.mem_iff.mp he)
    have hk : OrderedMap.find? key es = m.get? key := OrderedMap.find?_perm hp m.nodup_keys key
    rw [find?_after_putDefault he, find?_addLayer, hk]
    by_cases hn : (s.value key).isNull = true
    · have hf : s.find? key = none := h.isNull_value_iff.mp hn
      rw [if_pos hn, hf, Option.or_none, Option.none_or]
    · rw [if_neg hn]
      cases hf : s.find? key with
      | none => exact absurd (h.isNull_value_iff.mpr hf) hn
      | some v => rfl

theorem value_addLayer_of_contains (hc : s.contains key = true) (l : Layer) :
    (s.addLayer l).value key = s.value key := by
  rw [contains_eq_isSome, Option.isSome_iff_exists] at hc
  obtain ⟨v, hv⟩ := hc
  have hl : (s.addLayer l).find? key = some v := by rw [find?_addLayer, hv, Option.some_or]
  rw [value_eq_of_find? hl, value_eq_of_find? hv]

/-- Without null on either side, defaults put one by one in any order and the same map added as a
layer give stores on which everything reads the same, and neither way changes what is held. -/
theorem after_putDefault_readsSame (h : s.IsNullFree) (hm : ∀ e ∈ m.entries, e.2 ≠ .null)
    (hp : es.Perm m.entries) :
    ∃ t, s.add (.ofMap m) = .ok t ∧
      (s.after (es.map fun e => .putDefault e.1 e.2)).ReadsSame t ∧
      ∀ key, s.contains key = true →
        (s.after (es.map fun e => .putDefault e.1 e.2)).value key = s.value key ∧
          t.value key = s.value key := by
  have ha := after_putDefault_agrees h.isFilled hm hp
  refine ⟨s.addLayer m, s.add_ofMap m, ha.readsSame, fun key hc => ?_⟩
  have hv := value_addLayer_of_contains hc m
  exact ⟨(ha.value key).trans hv, hv⟩

/-- A store with a reference that leads to nothing yet. -/
def lacking : Store :=
  ⟨.ofList [("user", .text "${team}")], [.ofList [("port", .int 1)]], true⟩

def fallbacks : OrderedMap Value := .ofList [("team", .text "blue"), ("port", .int 2)]

theorem lacking_after_fallbacks :
    lacking.IsNullFree ∧ (∀ e ∈ fallbacks.entries, e.2 ≠ .null) ∧
      ([("port", .int 2), ("team", .text "blue")] : List (Text × Value)).Perm fallbacks.entries ∧
      ∃ t, lacking.add (.ofMap fallbacks) = .ok t ∧
        (lacking.after [.putDefault "port" (.int 2), .putDefault "team" (.text "blue")]).ReadsSame
          t ∧ t.value "port" = .int 1 := by
  have hn : lacking.IsNullFree := isNullFree_of_isNull (by decide)
  have hm : ∀ e ∈ fallbacks.entries, e.2 ≠ .null := by
    intro e he
    rcases List.mem_cons.mp (OrderedMap.mem_of_mem_ofList he) with rfl | he
    · exact nofun
    · cases List.mem_singleton.mp he
      exact nofun
  have hp : ([("port", .int 2), ("team", .text "blue")] : List (Text × Value)).Perm
      fallbacks.entries := List.Perm.swap _ _ _
  obtain ⟨t, ht, hr, hk⟩ := after_putDefault_readsSame hn hm hp
  exact ⟨hn, hm, hp, t, ht, hr, (hk "port" (by decide)).2⟩

end LayeredConfig.Store
