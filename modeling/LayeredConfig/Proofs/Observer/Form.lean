import LayeredConfig.Proofs.Known
import LayeredConfig.Proofs.Observer

/-! The texts that are read as observers, by their form. A text of the form is taken apart and
makes an observer; a text of any other form is refused, with an error of this library. -/

namespace LayeredConfig.Observer

variable {key t name : Text} {es : List (Text × Text)}

/-! ### Taking a text apart -/

theorem decodeParameter_eq_ok {field : Text} {e : Text × Text} (hc : comma ∉ field)
    (h : decodeParameter key field = .ok e) :
    field = e.1 ++ equals :: e.2 ∧ isPart e.1 = true ∧ isPart e.2 = true := by
  obtain ⟨k, rest, hf, rfl, hm⟩ := Text.exists_fields_eq equals field
  obtain ⟨v, rfl⟩ : ∃ v, rest = [v] := by
    rw [decodeParameter, hf] at h
    cases rest with
    | nil => cases h
    | cons v rest =>
      cases rest with
      | nil => exact ⟨v, rfl⟩
      | cons w rest => cases h
  have hk := hm k List.mem_cons_self
  have hv := hm v (List.mem_cons_of_mem _ List.mem_cons_self)
  simp only [List.flatMap_cons, List.flatMap_nil, List.append_nil, List.mem_append, List.mem_cons,
    not_or] at h hc ⊢
  rw [decodeParameter_written hk hv] at h
  by_cases hn : k = [] ∨ v = []
  · rw [if_pos hn] at h
    cases h
  · rw [if_neg hn] at h
    cases h
    rw [not_or] at hn
    exact ⟨rfl, isPart_iff.mpr ⟨hn.1, hc.1, hk⟩, isPart_iff.mpr ⟨hn.2, hc.2.2, hv⟩⟩

/-- A field `key=value` whose parts are good for a parameter. -/
def IsParameter (field : Text) : Prop :=
  ∃ k v, isPart k = true ∧ isPart v = true ∧ field = k ++ equals :: v

theorem decodeParameter_eq_error {field : Text} {fault : Fault}
    (h : decodeParameter key field = .error fault) :
    ¬ IsParameter field ∧ fault =
      if field.count equals = 1 then .observerPart key field else .observerField key field := by
  constructor
  · rintro ⟨k, v, hk, hv, rfl⟩
    rw [isPart_iff] at hk hv
    rw [decodeParameter_written hk.2.2 hv.2.2, if_neg (by simp [hk.1, hv.1])] at h
    cases h
  · have hl := Text.length_fields equals field
    unfold decodeParameter at h
    split at h
    · rename_i k v hf
      rw [hf] at hl
      split at h
      · cases h
        rw [if_pos (by simpa using hl.symm)]
      · cases h
    · rename_i hf
      cases h
      refine (if_neg fun hc => ?_).symm
      obtain ⟨k, rest, he, -⟩ := Text.exists_fields_eq equals field
      rw [he, hc] at hl
      obtain ⟨v, rfl⟩ := List.length_eq_one_iff.mp (Nat.succ.inj hl)
      exact hf k v he

theorem mapM_decodeParameter_eq_ok {fields : List Text} (hc : ∀ f ∈ fields, comma ∉ f)
    (h : fields.mapM (decodeParameter key) = .ok es) :
    fields = es.map (fun e => e.1 ++ equals :: e.2) ∧
      ∀ e ∈ es, isPart e.1 = true ∧ isPart e.2 = true := by
  induction fields generalizing es with
  | nil =>
    cases h
    exact ⟨rfl, by simp⟩
  | cons field fields ih =>
    obtain ⟨e, es, he, hes, rfl⟩ := mapM_cons_eq_ok_iff.mp h
    obtain ⟨hf, hfs⟩ := List.forall_mem_cons.mp hc
    obtain ⟨hw, hp⟩ := decodeParameter_eq_ok hf he
    obtain ⟨hws, hps⟩ := ih hfs hes
    exact ⟨by rw [List.map_cons, ← hw, ← hws], List.forall_mem_cons.mpr ⟨hp, hps⟩⟩

/-- Why the value of a property is refused: nothing is left of it, it has no class name, or a
field that is no parameter comes after fields that are. -/
inductive Refusal (key t : Text) : Fault → Prop where
  | empty (h : t.trim = []) : Refusal key t (.observerEmpty key)
  | unnamed {rest : Text} (h : t.trim = comma :: rest) :
    Refusal key t (.observerUnnamed key t.trim)
  | field {name field : Text} {before after : List Text} {fault : Fault}
      (hn : isClassName name = true)
      (ht : t.trim = name ++ (before ++ field :: after).flatMap (comma :: ·))
      (hc : ∀ f ∈ before ++ field :: after, comma ∉ f)
      (hb : ∀ f ∈ before, IsParameter f) (hf : ¬ IsParameter field)
      (he : fault =
        if field.count equals = 1 then .observerPart key field else .observerField key field) :
    Refusal key t fault

theorem Refusal.category? {fault : Fault} (h : Refusal key t fault) :
    fault.category? = some .configuration := by
  cases h with
  | empty => rfl
  | unnamed => rfl
  | field _ _ _ _ _ he =>
    rw [he]
    split <;> rfl

/-- A text is refused, or it has the form. -/
theorem decode_cases (key t : Text) :
    (∃ fault, decode key t = .error fault ∧ Refusal key t fault) ∨
      ∃ name es, IsWritten t name es := by
  obtain ⟨name, fields, hf, ht, hm⟩ := Text.exists_fields_eq comma t.trim
  obtain ⟨hc, hcs⟩ := List.forall_mem_cons.mp hm
  unfold decode
  split
  · rename_i he
    exact .inl ⟨_, rfl, .empty he⟩
  · rename_i hne
    rw [hf]
    by_cases hn : name = []
    · subst hn
      cases fields with
      | nil => exact absurd ht hne
      | cons field fields => exact .inl ⟨_, rfl, .unnamed ht⟩
    · simp only [List.isEmpty_iff, hn, if_false]
      have hname : isClassName name = true := isClassName_iff.mpr ⟨hn, hc⟩
      cases hp : fields.mapM (decodeParameter key) with
      | error fault =>
        obtain ⟨before, field, after, rfl, hb, hx⟩ := mapM_eq_error_iff.mp hp
        obtain ⟨hnp, he⟩ := decodeParameter_eq_error hx
        refine .inl ⟨fault, rfl, .field hname ht hcs (fun f hm => ?_) hnp he⟩
        obtain ⟨e, hd⟩ := hb f hm
        obtain ⟨hw, hk, hv⟩ := decodeParameter_eq_ok (hcs f (List.mem_append_left _ hm)) hd
        exact ⟨e.1, e.2, hk, hv, hw⟩
      | ok es =>
        obtain ⟨rfl, hps⟩ := mapM_decodeParameter_eq_ok hcs hp
        have he : (es.map fun e => e.1 ++ equals :: e.2).flatMap (comma :: ·) =
            encodeParameters es := List.flatMap_map ..
        exact .inr ⟨name, es, ht.trans (by rw [he]), hname, hps⟩

/-! ### What is read -/

theorem IsWritten.decode_eq_ok_iff (h : IsWritten t name es) {o : Observer} :
    decode key t = .ok o ↔ o.className = name ∧ o.parameters = OrderedMap.ofList es := by
  rw [h.decode_eq]
  constructor
  · rintro ⟨⟩
    exact ⟨rfl, rfl⟩
  · rintro ⟨hn, hp⟩
    exact congrArg Except.ok (ext hn.symm hp.symm)

theorem mem_encodeParameters {e : Text × Text} (he : e ∈ es) :
    e.1 ⊆ encodeParameters es ∧ e.2 ⊆ encodeParameters es := by
  have hs : comma :: e.1 ++ equals :: e.2 ⊆ encodeParameters es :=
    fun c hc => List.mem_flatMap.mpr ⟨e, he, hc⟩
  constructor
  · exact fun c hc => hs (by simp [hc])
  · exact fun c hc => hs (by simp [hc])

/-- What is read from a text comes from its form. -/
theorem exists_isWritten_of_decode {o : Observer} (h : decode key t = .ok o) :
    ∃ es, IsWritten t o.className es ∧ o.parameters = OrderedMap.ofList es := by
  obtain ⟨fault, hf, -⟩ | ⟨name, es, hw⟩ := decode_cases key t
  · cases h.symm.trans hf
  · obtain ⟨rfl, hp⟩ := hw.decode_eq_ok_iff.mp h
    exact ⟨es, hw, hp⟩

/-- An observer holds only characters of the text that it is read from. -/
theorem subset_of_decode {o : Observer} (h : decode key t = .ok o) :
    o.className ⊆ t ∧ ∀ e ∈ o.parameters.entries, e.1 ⊆ t ∧ e.2 ⊆ t := by
  obtain ⟨es, hw, hp⟩ := exists_isWritten_of_decode h
  have hs : o.className ++ encodeParameters es ⊆ t := hw.trim ▸ Text.trim_subset t
  obtain ⟨hn, hes⟩ := List.append_subset.mp hs
  refine ⟨hn, fun e he => ?_⟩
  rw [hp] at he
  obtain ⟨hk, hv⟩ := mem_encodeParameters (OrderedMap.mem_of_mem_ofList he)
  exact ⟨List.Subset.trans hk hes, List.Subset.trans hv hes⟩

theorem endsKnown_decode (key t : Text) : EndsKnown (decode key t) := by
  obtain ⟨fault, hf, hr⟩ | ⟨name, es, hw⟩ := decode_cases key t
  · rw [hf]
    exact .error (by rw [Fault.IsKnown, hr.category?]; rfl)
  · rw [hw.decode_eq]
    exact .ok _

end LayeredConfig.Observer
