import LayeredConfig.Loader
import LayeredConfig.Proofs.OrderedMap
import LayeredConfig.Proofs.Toml.Filled
import LayeredConfig.Proofs.Traversal

/-! Files hold no null: a property file has only texts, and flattening a document keeps its
values. -/

namespace LayeredConfig

theorem Document.ne_null_of_flattenOnto {flat m : OrderedMap Value} {above : Text}
    {es : List (Value × Value)} (hf : ∀ e ∈ flat.entries, e.2 ≠ .null)
    (hes : ∀ e ∈ es, e.2.IsFilled) (h : flattenOnto flat above es = .ok m) :
    ∀ e ∈ m.entries, e.2 ≠ .null := by
  induction flat, above, es using flattenOnto.induct generalizing m with
  | case1 flat above =>
    rw [flattenOnto] at h
    cases h
    exact hf
  | case2 flat above key entries rest hk => simp [flattenOnto, hk] at h
  | case3 flat above key entries rest k hk ih ihr =>
    simp only [flattenOnto, hk] at h
    obtain ⟨inner, hi, h⟩ := Except.bind_eq_ok_iff.mp h
    obtain ⟨he, hrest⟩ := List.forall_mem_cons.mp hes
    have hin : ∀ e ∈ inner.entries, e.2 ≠ .null := by
      cases he with
      | leaf _ hm => exact absurd rfl (hm entries)
      | map he => exact ih (by simp [OrderedMap.empty]) he hi
    refine ihr inner (fun e hm => ?_) hrest h
    exact (OrderedMap.mem_update_entries hm).elim (hin e) (hf e)
  | case4 flat above key value rest hm hk => simp [flattenOnto, hk] at h
  | case5 flat above key rest k items hk => simp [flattenOnto, hk] at h
  | case6 flat above key rest k value hl hk hm ih =>
    rw [flattenOnto.eq_5 _ _ _ _ _ _ hk hl hm] at h
    obtain ⟨he, hrest⟩ := List.forall_mem_cons.mp hes
    have hv : value ≠ .null := by
      cases he with
      | leaf hn _ => exact hn
      | map _ => simp
    refine ih (fun e hi => ?_) hrest h
    rcases OrderedMap.mem_write hi with rfl | hi
    · exact hv
    · exact hf e hi

namespace Loader

theorem ne_null_of_parse {p : Path} {t : Text} {l : Layer} (h : parse p t = .ok l) :
    ∀ e ∈ l.entries, e.2 ≠ .null := by
  rw [parse] at h
  split_ifs at h
  · cases hr : Toml.read t with
    | none => simp [hr] at h
    | some es =>
      rw [hr] at h
      cases Toml.isFilled_of_read hr with
      | leaf _ hm => exact absurd rfl (hm es)
      | map hes => exact Document.ne_null_of_flattenOnto (by simp [OrderedMap.empty]) hes h
  · obtain ⟨m, -, rfl⟩ := Except.map_eq_ok_iff.mp h
    rw [OrderedMap.map_entries, List.forall_mem_map]
    exact fun _ _ => by simp

theorem get?_ne_null_of_load {files : Files} {path : Text} {l : Layer}
    (h : (load files path).result = .ok l) (key : Text) : l.get? key ≠ some .null := by
  obtain ⟨bytes, -, h⟩ := Logged.bind_result_eq_ok_iff.mp h
  obtain ⟨l', hl, h⟩ := Logged.bind_result_eq_ok_iff.mp h
  obtain ⟨u, -, h⟩ := Logged.bind_result_eq_ok_iff.mp h
  cases h
  rw [Logged.quiet] at hl
  split at hl
  · cases hl
  · exact fun hk => ne_null_of_parse hl _ (OrderedMap.mem_of_get? hk) rfl

end Loader

end LayeredConfig
