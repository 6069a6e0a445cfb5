import LayeredConfig.Proofs.OrderedMap
import LayeredConfig.Proofs.Properties.Entry
import LayeredConfig.Proofs.Value.Simple

/-! Entries written to a text and read back. The text can always be read, and what is read is
what was written exactly if no key and no value has a breaker. -/

namespace LayeredConfig.Properties

/-- Lines of paired text are not continued, so they are logical lines unless they are ignored. -/
theorem joinLines_of_paired {ls : List Text} (h : ∀ l ∈ ls, Paired l) :
    joinLines none ls = (ls.map trimMargin).filter fun l => !isIgnored l := by
  induction ls with
  | nil => rfl
  | cons l ls ih =>
    have hl := (h l List.mem_cons_self).trimMargin.not_continues
    have hh := ih fun l hl => h l (List.mem_cons_of_mem _ hl)
    rw [joinLines, List.map_cons, List.filter_cons]
    cases hi : isIgnored (trimMargin l) <;> simp [hl, hh]

theorem entry_of_paired {l : Text} (hl : Paired l) (he : ∀ c ∈ l, c.isLineEnd = false) :
    ∃ e, entry l = .ok e ∧ Unbroken e.1 ∧ Unbroken e.2 := by
  have hb : ∀ c ∈ l, isBreaker c = false := fun c hc =>
    Bool.eq_false_iff.mpr fun hh => by simpa [isLineEnd_iff.mpr (.inl hh)] using he c hc
  obtain ⟨key, hk, hkb⟩ := hl.spanKey.1.unescape
  obtain ⟨value, hv, hvb⟩ := hl.spanKey.2.dropSeparator.unescape
  refine ⟨(key, value), by rw [entry, hk, hv]; rfl, ?_, ?_⟩
  · intro c hc
    refine (hkb c hc).elim (fun hm => hb c ?_) id
    rw [← spanKey_append l]
    exact List.mem_append_left _ hm
  · intro c hc
    refine (hvb c hc).elim (fun hm => hb c ?_) id
    rw [← spanKey_append l]
    exact List.mem_append_right _ ((dropSeparator_suffix _).subset hm)

theorem exists_read_of_paired {t : Text} (ht : Paired t) :
    ∃ r, read t = .ok r ∧ ∀ e ∈ r.entries, Unbroken e.1 ∧ Unbroken e.2 := by
  have hlog : ∀ l ∈ logicalLines t, ∃ e, entry l = .ok e ∧ Unbroken e.1 ∧ Unbroken e.2 := by
    intro l hl
    rw [logicalLines, joinLines_of_paired fun l hl => ht.of_mem_lines hl] at hl
    obtain ⟨l', hm, rfl⟩ := List.mem_map.mp (List.mem_filter.mp hl).1
    refine entry_of_paired (ht.of_mem_lines hm).trimMargin fun c hc => ?_
    exact Text.isLineEnd_of_mem_lines hm c ((List.dropWhile_suffix _).subset hc)
  obtain ⟨es, hes⟩ := exists_mapM_eq_ok_iff.mpr fun l hl => (hlog l hl).imp fun _ h => h.1
  refine ⟨.ofList es, by rw [read, hes]; rfl, ?_⟩
  intro e he
  obtain ⟨l, hl, hle⟩ := exists_of_mem_mapM hes (OrderedMap.mem_of_mem_ofList he)
  obtain ⟨e', he', hh⟩ := hlog l hl
  rw [he'] at hle
  exact Except.ok.inj hle ▸ hh

theorem paired_write (entries : List (Text × Text)) : Paired (write entries) :=
  .flatMap fun e _ => (paired_line e.1 e.2).append (.plain (by decide) .nil)

theorem logicalLines_write {entries : List (Text × Text)}
    (h : ∀ e ∈ entries, Unbroken e.1 ∧ Unbroken e.2) :
    logicalLines (write entries) = entries.map fun e => line e.1 e.2 := by
  have he : ∀ l ∈ entries.map fun e => line e.1 e.2, ∀ c ∈ l, c.isLineEnd = false := by
    intro l hl
    obtain ⟨e, he, rfl⟩ := List.mem_map.mp hl
    exact isLineEnd_of_mem_line (h e he).1 (h e he).2
  have hw : (write entries).lines = entries.map fun e => line e.1 e.2 := by
    have hh := Text.lines_flatMap_newline he
    rw [List.flatMap_map] at hh
    exact hh
  rw [logicalLines, joinLines_of_paired fun l hl => (paired_write entries).of_mem_lines hl, hw,
    List.map_map, List.filter_eq_self.mpr]
  · exact List.map_congr_left fun e _ => trimMargin_line e.1 e.2
  · intro l hl
    obtain ⟨e, -, rfl⟩ := List.mem_map.mp hl
    simp only [Function.comp_apply, trimMargin_line, isIgnored_line, Bool.not_false]

theorem read_write_of_unbroken {m : OrderedMap Text}
    (h : ∀ e ∈ m.entries, Unbroken e.1 ∧ Unbroken e.2) : read (write m.entries) = .ok m := by
  have hm : (m.entries.map fun e => line e.1 e.2).mapM entry = .ok m.entries := by
    rw [List.mapM_map, mapM_eq_pure_map (g := id) fun e _ => entry_of_line e.1 e.2, List.map_id]
    rfl
  rw [read, logicalLines_write h, hm]
  exact congrArg _ m.ofList_self

theorem exists_read_write (m : OrderedMap Text) : ∃ r, read (write m.entries) = .ok r ∧
    (r = m ↔ ∀ e ∈ m.entries, Unbroken e.1 ∧ Unbroken e.2) := by
  obtain ⟨r, hr, hb⟩ := exists_read_of_paired (paired_write m.entries)
  refine ⟨r, hr, ?_, fun h => ?_⟩
  · rintro rfl
    exact hb
  · rw [read_write_of_unbroken h] at hr
    exact (Except.ok.inj hr).symm

theorem unbroken_of_not_blank {t : Text} (h : ∀ c ∈ t, c.isBlank = false) : Unbroken t := by
  intro c hc
  refine Bool.eq_false_iff.mpr fun hb => ?_
  have hh := CodePoint.isBlank_of_isLineEnd (isLineEnd_iff.mpr (.inl hb))
  simp [h c hc] at hh

theorem writeValues?_of_simple {m : OrderedMap Value} (hm : ∀ e ∈ m.entries, e.2.IsSimple) :
    writeValues? (m.entries.map fun e => (.text e.1, e.2)) =
      some (write (m.map Value.rendered).entries) := by
  rw [writeValues?, List.mapM_map, mapM_eq_pure_map (g := fun e => (e.1, e.2.rendered))]
  · rfl
  · intro e he
    rw [Function.comp_apply, (hm e he).settingText?]
    rfl

/-- A map of simple values can be written and read. It comes back with every value rendered, in
the same order, exactly if no key and no rendered value has a breaker. -/
theorem read_writeValues {m : OrderedMap Value} (hm : ∀ e ∈ m.entries, e.2.IsSimple) :
    ∃ t r, writeValues? (m.entries.map fun e => (.text e.1, e.2)) = some t ∧ read t = .ok r ∧
      (r = m.map Value.rendered ↔
        ∀ e ∈ m.entries, Unbroken e.1 ∧ Unbroken e.2.rendered) := by
  obtain ⟨r, hr, hh⟩ := exists_read_write (m.map Value.rendered)
  refine ⟨_, r, writeValues?_of_simple hm, hr, hh.trans ?_⟩
  simp only [OrderedMap.map_entries, List.forall_mem_map]

def marks : OrderedMap Value where
  entries := [("", .text " #=:\\\\\t! "), (" !\\ =", .text ""), ("\x0c\r\n", .bool true),
    ("#", .int (-12))]
  nodup_keys := by decide

theorem read_writeValues_marks : (∀ e ∈ marks.entries, e.2.IsSimple) ∧
    ∃ t r, writeValues? (marks.entries.map fun e => (.text e.1, e.2)) = some t ∧ read t = .ok r ∧
      r = marks.map Value.rendered := by
  have hm : ∀ e ∈ marks.entries, e.2.IsSimple := by
    simp only [marks, List.forall_mem_cons]
    exact ⟨.text _, .text _, .bool _, .int_of_le (k := 2) (by decide) (by decide), by simp⟩
  obtain ⟨t, r, ht, hr, hh⟩ := read_writeValues hm
  refine ⟨hm, t, r, ht, hr, hh.mpr ?_⟩
  simp only [marks, List.forall_mem_cons]
  exact ⟨by decide, by decide, by decide,
    ⟨by decide, unbroken_of_not_blank Numeral.isBlank_of_mem_ofInt⟩, by simp⟩

end LayeredConfig.Properties
