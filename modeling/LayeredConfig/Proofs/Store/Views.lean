import Mathlib.Data.List.Nodup
import LayeredConfig.Proofs.Store.Contents
import LayeredConfig.Store.View

/-! What a view shows of its store. A name in the view and the full key are turned into each
other, and the empty name stands for the prefix itself. The prefix with a full stop and nothing
after it therefore has no name: the view lists it under the empty name, where it is not held. -/

namespace LayeredConfig

theorem isWithin_iff {space name : Text} : isWithin space name = true ↔
    name = space ∨ ∃ rest, name = space ++ .scalar '.' :: rest := by
  have hp : (space ++ ("." : Text)).isPrefixOf name = true ↔
      ∃ rest, name = space ++ .scalar '.' :: rest := by
    rw [List.isPrefixOf_iff_prefix]
    constructor
    · rintro ⟨rest, rfl⟩
      exact ⟨rest, List.append_assoc space _ rest⟩
    · rintro ⟨rest, rfl⟩
      exact ⟨rest, List.append_assoc space _ rest⟩
  rw [isWithin, Bool.or_eq_true, decide_eq_true_eq, hp]

namespace View

variable {v : View} {s : Store} {key : Text}

/-! ### Names -/

/-- The one key below the prefix that no name in the view stands for. -/
def unnamedKey (v : View) : Text := v.space ++ [.scalar '.']

theorem fullKey_nil (v : View) : v.fullKey [] = v.space := rfl

theorem fullKey_of_ne_nil (v : View) (h : key ≠ []) :
    v.fullKey key = v.space ++ .scalar '.' :: key := by
  cases key with
  | nil => exact absurd rfl h
  | cons c key => rfl

theorem isWithin_fullKey (v : View) (key : Text) : isWithin v.space (v.fullKey key) = true := by
  by_cases h : key = []
  · subst h
    exact isWithin_iff.mpr (.inl v.fullKey_nil)
  · exact isWithin_iff.mpr (.inr ⟨key, v.fullKey_of_ne_nil h⟩)

theorem fullKey_ne_unnamedKey (v : View) (key : Text) : v.fullKey key ≠ v.unnamedKey := by
  intro he
  by_cases h : key = []
  · have hl := congrArg List.length he
    simp [h, fullKey_nil, unnamedKey] at hl
  · rw [v.fullKey_of_ne_nil h] at he
    exact h (List.cons.inj (List.append_cancel_left he)).2

theorem localKey_append (v : View) (rest : Text) :
    v.localKey (v.space ++ .scalar '.' :: rest) = rest := by
  have hn : v.space ++ .scalar '.' :: rest ≠ v.space := by simp
  rw [localKey, if_neg hn, List.drop_append]
  simp

/-- A key below the prefix is found again by its name in the view. -/
theorem fullKey_localKey (h : isWithin v.space key = true) (hk : key ≠ v.unnamedKey) :
    v.fullKey (v.localKey key) = key := by
  rcases isWithin_iff.mp h with rfl | ⟨rest, rfl⟩
  · rw [localKey, if_pos rfl, fullKey_nil]
  · have hn : rest ≠ [] := by
      rintro rfl
      exact hk rfl
    rw [localKey_append, v.fullKey_of_ne_nil hn]

/-! ### Contents -/

theorem mem_keysWithin {space : Text} :
    key ∈ s.keysWithin space ↔ s.contains key = true ∧ isWithin space key = true := by
  rw [Store.keysWithin, List.mem_filter, Store.mem_keys_iff]

/-- The view shows the keys below the prefix, each once and under a name of its own that it
holds, in the order of the store and with the values of the store. -/
structure Mirrors (v : View) (s : Store) : Prop where
  nodup_keys : (v.keys s).Nodup
  map_fullKey : (v.keys s).map v.fullKey = s.keysWithin v.space
  contains : ∀ key ∈ v.keys s, v.contains s key = true
  resolved : (v.resolved s).entries =
    (s.keysWithin v.space).map fun key => (v.localKey key, s.value key)

theorem mirrors_of_named (h : ∀ key ∈ s.keysWithin v.space, v.fullKey (v.localKey key) = key) :
    v.Mirrors s := by
  have hm : (v.keys s).map v.fullKey = s.keysWithin v.space := by
    rw [keys, List.map_map]
    exact (List.map_congr_left h).trans (List.map_id _)
  have hn : (v.keys s).Nodup := by
    refine List.Nodup.of_map v.fullKey ?_
    rw [hm]
    exact s.nodup_keys.sublist List.filter_sublist
  refine ⟨hn, hm, ?_, ?_⟩
  · intro name hname
    have hk : v.fullKey name ∈ s.keysWithin v.space := hm ▸ List.mem_map_of_mem hname
    exact (mem_keysWithin.mp hk).1
  · rw [resolved, OrderedMap.ofList_map_entries hn, keys, List.map_map]
    refine List.map_congr_left fun key hk => ?_
    simp only [Function.comp_apply, value, h key hk]

/-- A view shows its part of the store faithfully exactly if the store does not hold the prefix
with a bare full stop after it. Each other key below the prefix is always shown with its value. -/
theorem mirrors_iff (v : View) (s : Store) :
    (v.Mirrors s ↔ s.contains v.unnamedKey = false) ∧
      ∀ key ∈ s.keysWithin v.space, key ≠ v.unnamedKey →
        v.localKey key ∈ v.keys s ∧ v.fullKey (v.localKey key) = key ∧
          v.contains s (v.localKey key) = true ∧ v.value s (v.localKey key) = s.value key := by
  refine ⟨⟨fun h => ?_, fun h => mirrors_of_named fun key hk => ?_⟩, fun key hk hne => ?_⟩
  · rw [Bool.eq_false_iff]
    intro hc
    have hu : isWithin v.space v.unnamedKey = true := isWithin_iff.mpr (.inr ⟨[], rfl⟩)
    have hm : v.unnamedKey ∈ (v.keys s).map v.fullKey :=
      h.map_fullKey ▸ mem_keysWithin.mpr ⟨hc, hu⟩
    obtain ⟨name, -, he⟩ := List.mem_map.mp hm
    exact v.fullKey_ne_unnamedKey name he
  · obtain ⟨hc, hw⟩ := mem_keysWithin.mp hk
    refine fullKey_localKey hw ?_
    rintro rfl
    exact absurd hc (by simp [h])
  · obtain ⟨hc, hw⟩ := mem_keysWithin.mp hk
    have hf := fullKey_localKey hw hne
    refine ⟨List.mem_map_of_mem hk, hf, ?_, ?_⟩
    · rw [contains, hf, hc]
    · rw [value, hf]

/-- The prefix itself, keys below it with empty parts, and one that ends in a full stop. -/
def dotted : Store :=
  ⟨.ofList [("p.a", .int 1)], [.ofList [("p..a", .int 2), ("p", .int 3), ("p.", .int 4)]], false⟩

theorem dotted_shown : ("p..a" : Text) ∈ dotted.keysWithin "p" ∧
    (View.mk "p").localKey "p..a" = ".a" ∧ (View.mk "p").value dotted ".a" = .int 2 ∧
    ¬ (View.mk "p").Mirrors dotted := by
  have hm : ("p..a" : Text) ∈ dotted.keysWithin "p" := by decide
  obtain ⟨hiff, hshown⟩ := mirrors_iff (View.mk "p") dotted
  have hl : (View.mk "p").localKey "p..a" = ".a" := by decide
  obtain ⟨-, -, -, hv⟩ := hshown "p..a" hm (by decide)
  rw [hl] at hv
  exact ⟨hm, hl, hv, fun h => absurd (hiff.mp h) (by decide)⟩

/-- A key is listed under a name that the view does not hold. -/
def trailing : Store := ⟨.empty, [.ofList [("p.", .int 1)]], false⟩

theorem trailing_not_shown : trailing.keysWithin "p" = [("p." : Text)] ∧
    (View.mk "p").keys trailing = [[]] ∧ (View.mk "p").contains trailing [] = false ∧
    ((View.mk "p").keys trailing).map (View.mk "p").fullKey ≠ trailing.keysWithin "p" := by
  decide

end View

end LayeredConfig
