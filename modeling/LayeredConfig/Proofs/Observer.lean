import LayeredConfig.Observer
import LayeredConfig.Proofs.OrderedMap
import LayeredConfig.Proofs.Text.Fields
import LayeredConfig.Proofs.Traversal

/-! Observers written as text and read back. What is read is the written text less the blanks at
its two ends, so an observer survives exactly if its text has no blanks there. -/

namespace LayeredConfig.Observer

@[ext] theorem ext {o o' : Observer} (hn : o.className = o'.className)
    (hp : o.parameters = o'.parameters) : o = o' := by
  cases o
  cases o'
  simp_all

theorem isClassName_iff {t : Text} : isClassName t = true ↔ t ≠ [] ∧ comma ∉ t := by
  simp [isClassName]

theorem isPart_iff {t : Text} : isPart t = true ↔ t ≠ [] ∧ comma ∉ t ∧ equals ∉ t := by
  simp [isPart, and_assoc]

theorem className_ne_nil (o : Observer) : o.className ≠ [] := (isClassName_iff.mp o.isValid.1).1

theorem value_ne_nil {o : Observer} {e : Text × Text} (he : e ∈ o.parameters.entries) :
    e.2 ≠ [] := by
  have hh := o.isValid.2 e he
  simp only [Bool.and_eq_true] at hh
  exact (isPart_iff.mp hh.2).1

/-! ### Reading the fields -/

theorem fields_encodeParameters {name : Text} {es : List (Text × Text)} (hn : comma ∉ name)
    (he : ∀ e ∈ es, comma ∉ e.1 ∧ comma ∉ e.2) :
    Text.fields comma (name ++ encodeParameters es) =
      name :: es.map fun e => e.1 ++ equals :: e.2 := by
  induction es generalizing name with
  | nil => simpa [encodeParameters] using Text.fields_of_not_mem hn
  | cons e es ih =>
    obtain ⟨⟨hk, hv⟩, hes⟩ := List.forall_mem_cons.mp he
    have hf : comma ∉ e.1 ++ equals :: e.2 := by
      have hq : comma ≠ equals := by decide
      simp [hk, hv, hq]
    have hc : encodeParameters (e :: es) =
        comma :: ((e.1 ++ equals :: e.2) ++ encodeParameters es) := by
      simp [encodeParameters]
    rw [hc, Text.fields_append_cons hn, ih hf hes, List.map_cons]

theorem decodeParameter_written {key k v : Text} (hk : equals ∉ k) (hv : equals ∉ v) :
    decodeParameter key (k ++ equals :: v) =
      if k = [] ∨ v = [] then .error (.observerPart key (k ++ equals :: v)) else .ok (k, v) := by
  have hf : Text.fields equals (k ++ equals :: v) = [k, v] := by
    rw [Text.fields_append_cons hk, Text.fields_of_not_mem hv]
  simp [decodeParameter, hf]

theorem category?_of_decodeParameter {key field : Text} {f : Fault}
    (h : decodeParameter key field = .error f) : f.category? = some .configuration := by
  unfold decodeParameter at h
  split at h
  · split at h
    · cases h
      rfl
    · cases h
  · cases h
    rfl

theorem decode_of_trim {name key t : Text} {es : List (Text × Text)}
    (ht : t.trim = name ++ encodeParameters es) (hn : isClassName name = true)
    (he : ∀ e ∈ es, comma ∉ e.1 ∧ comma ∉ e.2) :
    decode key t = (es.map fun e => e.1 ++ equals :: e.2).mapM (decodeParameter key) >>=
      fun ps => ofFields (some (.text name))
        (some (Value.ofOrderedMap ((OrderedMap.ofList ps).map Value.text))) := by
  obtain ⟨hne, hc⟩ := isClassName_iff.mp hn
  unfold decode
  split
  · rename_i hnil
    rw [ht] at hnil
    exact absurd (List.append_eq_nil_iff.mp hnil).1 hne
  · rw [ht, fields_encodeParameters hc he]
    simp [hne]

/-! ### Fields of valid parts -/

theorem textEntries_texts (path : List Value) (es : List (Text × Text)) :
    Field.textEntries path (es.map fun e => (.text e.1, .text e.2)) = .ok es := by
  induction es with
  | nil => rfl
  | cons e es ih => simp [Field.textEntries, Field.text, Field.both, ih]

theorem parameterFlaw?_of_isPart {e : Text × Text} (hk : isPart e.1 = true)
    (hv : isPart e.2 = true) : parameterFlaw? e = none := by
  rw [isPart_iff] at hk hv
  simp [parameterFlaw?, hk, hv]

theorem ofFields_of_isValid {name : Text} {m : OrderedMap Text} (h : IsValid name m) :
    ofFields (some (.text name)) (some (Value.ofOrderedMap (m.map Value.text))) =
      .ok ⟨name, m, h⟩ := by
  obtain ⟨hn, hm⟩ := h
  simp only [Bool.and_eq_true] at hm
  have hc : classNameOf (some (.text name)) = .ok name := by
    rw [isClassName_iff] at hn
    simp [classNameOf, Field.text, Except.bind, checkClassName, hn]
  have hp : parametersOf (some (Value.ofOrderedMap (m.map Value.text))) = .ok m := by
    have ht : Field.textMap parametersPath (Value.ofOrderedMap (m.map Value.text)) = .ok m := by
      rw [Value.ofOrderedMap, OrderedMap.map_entries, List.map_map]
      change (Field.textEntries parametersPath
        (m.entries.map fun e => (.text e.1, .text e.2))).map _ = _
      rw [textEntries_texts, Except.map, OrderedMap.ofList_self]
    have hf : m.entries.findSome? parameterFlaw? = none :=
      List.findSome?_eq_none_iff.mpr fun e he => parameterFlaw?_of_isPart (hm e he).1 (hm e he).2
    rw [parametersOf, ht]
    simp [Except.bind, checkParameters, hf]
  have hb : Field.both (classNameOf (some (.text name)))
      (parametersOf (some (Value.ofOrderedMap (m.map Value.text)))) = .ok (name, m) := by
    rw [hc, hp, Field.both]
  unfold ofFields
  split
  · rename_i flaws he
    cases hb.symm.trans he
  · rename_i n p he
    obtain ⟨rfl, rfl⟩ := Prod.mk.inj (Except.ok.inj (hb.symm.trans he))
    rfl

/-! ### Texts of the form -/

/-- Between blanks the text has the form `className(,key=value)*`. -/
structure IsWritten (t name : Text) (es : List (Text × Text)) : Prop where
  trim : t.trim = name ++ encodeParameters es
  name : isClassName name = true
  parts : ∀ e ∈ es, isPart e.1 = true ∧ isPart e.2 = true

namespace IsWritten

variable {t name : Text} {es : List (Text × Text)}

theorem isValid (h : IsWritten t name es) : IsValid name (OrderedMap.ofList es) :=
  ⟨h.name, fun e he => by simp [h.parts e (OrderedMap.mem_of_mem_ofList he)]⟩

/-- Of a repeated parameter the last value counts. -/
theorem decode_eq (h : IsWritten t name es) (key : Text) :
    decode key t = .ok ⟨name, OrderedMap.ofList es, h.isValid⟩ := by
  have hm : (es.map fun e => e.1 ++ equals :: e.2).mapM (decodeParameter key) = .ok es := by
    have hh : es.mapM (decodeParameter key ∘ fun e => e.1 ++ equals :: e.2) =
        pure (es.map id) := mapM_eq_pure_map fun e he => by
      obtain ⟨hk, hv⟩ := h.parts e he
      rw [isPart_iff] at hk hv
      rw [Function.comp, decodeParameter_written hk.2.2 hv.2.2, if_neg (by simp [hk.1, hv.1])]
      rfl
    rw [List.mapM_map, hh, List.map_id]
    rfl
  have hc : ∀ e ∈ es, comma ∉ e.1 ∧ comma ∉ e.2 := by
    intro e he
    obtain ⟨hk, hv⟩ := h.parts e he
    exact ⟨(isPart_iff.mp hk).2.1, (isPart_iff.mp hv).2.1⟩
  rw [decode_of_trim h.trim h.name hc, hm]
  exact ofFields_of_isValid h.isValid

end IsWritten

/-! ### What trimming leaves -/

/-- A name and parameters that are an observer's own with characters left out, but not keys. -/
structure IsRemnant (name : Text) (es : List (Text × Text)) (o : Observer) : Prop where
  name : name ⊆ o.className
  keys : es.map Prod.fst = o.parameters.keys
  values : ∀ e ∈ es, ∃ v, (e.1, v) ∈ o.parameters.entries ∧ e.2 ⊆ v

namespace IsRemnant

variable {o : Observer} {name key t : Text} {es : List (Text × Text)}

theorem refl (o : Observer) : IsRemnant o.className o.parameters.entries o :=
  ⟨List.Subset.refl _, rfl, fun e he => ⟨e.2, he, List.Subset.refl _⟩⟩

theorem comma_not_mem (h : IsRemnant name es o) : comma ∉ name := by
  have hc := (isClassName_iff.mp o.isValid.1).2
  exact fun hm => hc (h.name hm)

theorem entry (h : IsRemnant name es o) {e : Text × Text} (he : e ∈ es) :
    isPart e.1 = true ∧ comma ∉ e.2 ∧ equals ∉ e.2 := by
  obtain ⟨v, hv, hs⟩ := h.values e he
  have hh := o.isValid.2 (e.1, v) hv
  simp only [Bool.and_eq_true] at hh
  obtain ⟨-, hc, hq⟩ := isPart_iff.mp hh.2
  exact ⟨hh.1, fun hm => hc (hs hm), fun hm => hq (hs hm)⟩

theorem comma_not_mem_entry (h : IsRemnant name es o) :
    ∀ e ∈ es, comma ∉ e.1 ∧ comma ∉ e.2 :=
  fun _ he => ⟨(isPart_iff.mp (h.entry he).1).2.1, (h.entry he).2.1⟩

theorem fields (h : IsRemnant name es o) : Text.fields comma (name ++ encodeParameters es) =
    name :: es.map fun e => e.1 ++ equals :: e.2 :=
  fields_encodeParameters h.comma_not_mem h.comma_not_mem_entry

theorem decodeParameter (h : IsRemnant name es o) {e : Text × Text} (he : e ∈ es) :
    Observer.decodeParameter key (e.1 ++ equals :: e.2) =
      if e.2 = [] then .error (.observerPart key (e.1 ++ equals :: e.2)) else .ok e := by
  obtain ⟨hk, -, hq⟩ := h.entry he
  obtain ⟨hne, -, hkq⟩ := isPart_iff.mp hk
  rw [decodeParameter_written hkq hq]
  simp [hne]

theorem decode_eq (h : IsRemnant name es o) (ht : t.trim = name ++ encodeParameters es)
    (hn : name ≠ []) :
    decode key t = (es.map fun e => e.1 ++ equals :: e.2).mapM (Observer.decodeParameter key) >>=
      fun ps => ofFields (some (.text name))
        (some (Value.ofOrderedMap ((OrderedMap.ofList ps).map Value.text))) :=
  decode_of_trim ht (isClassName_iff.mpr ⟨hn, h.comma_not_mem⟩) h.comma_not_mem_entry

/-- If no part of it became empty, what is left is read as an observer. -/
theorem exists_decode (h : IsRemnant name es o) (ht : t.trim = name ++ encodeParameters es)
    (hn : name ≠ []) (he : ∀ e ∈ es, e.2 ≠ []) (key : Text) :
    ∃ o', decode key t = .ok o' ∧ o'.className = name ∧ o'.parameters.entries = es := by
  have hw : IsWritten t name es := by
    refine ⟨ht, isClassName_iff.mpr ⟨hn, h.comma_not_mem⟩, fun e hm => ?_⟩
    obtain ⟨hk, hc, hq⟩ := h.entry hm
    exact ⟨hk, isPart_iff.mpr ⟨he e hm, hc, hq⟩⟩
  exact ⟨_, hw.decode_eq key, rfl, OrderedMap.ofList_entries (h.keys ▸ o.parameters.nodup_keys)⟩

/-- If a part of it became empty, what is left is refused. -/
theorem exists_decode_error (h : IsRemnant name es o) (ht : t.trim = name ++ encodeParameters es)
    (hbad : name = [] ∨ ∃ e ∈ es, e.2 = []) :
    ∃ f, decode key t = .error f ∧ f.category? = some .configuration := by
  by_cases hn : name = []
  · unfold decode
    split
    · exact ⟨_, rfl, rfl⟩
    · rw [ht, h.fields, hn]
      exact ⟨_, rfl, rfl⟩
  · obtain ⟨e, he, hv⟩ := hbad.resolve_left hn
    rw [h.decode_eq ht hn]
    cases hm : (es.map fun e => e.1 ++ equals :: e.2).mapM (Observer.decodeParameter key) with
    | ok ps =>
      obtain ⟨p, hp⟩ := exists_mapM_eq_ok_iff.mp ⟨ps, hm⟩ _ (List.mem_map_of_mem he)
      rw [h.decodeParameter he, if_pos hv] at hp
      exact nomatch hp
    | error f =>
      obtain ⟨x, -, hx⟩ := exists_of_mapM_eq_error hm
      exact ⟨f, rfl, category?_of_decodeParameter hx⟩

end IsRemnant

theorem encodeParameters_append_singleton (es : List (Text × Text)) (k v : Text) :
    encodeParameters (es ++ [(k, v)]) = encodeParameters es ++ comma :: k ++ [equals] ++ v := by
  simp [encodeParameters]

theorem isBlank_of_head?_encodeParameters {es : List (Text × Text)} :
    ∀ c ∈ (encodeParameters es).head?, c.isBlank = false := by
  cases es with
  | nil => simp [encodeParameters]
  | cons e es =>
    simp only [encodeParameters, List.flatMap_cons, List.cons_append, List.head?_cons,
      Option.mem_some_iff]
    rintro c rfl
    decide

/-- Trimming takes blanks off the class name and off the value of the last parameter. -/
theorem exists_isRemnant_trim (o : Observer) :
    ∃ name es, IsRemnant name es o ∧ o.encode.trim = name ++ encodeParameters es := by
  rcases List.eq_nil_or_concat o.parameters.entries with he | ⟨es, ⟨k, v⟩, he⟩
  · refine ⟨o.className.trim, [], ⟨Text.trim_subset _, ?_, by simp⟩, ?_⟩
    · rw [OrderedMap.keys, he]
    · simp [encode, he, encodeParameters]
  · rw [List.concat_eq_append] at he
    let front := Text.trimStart CodePoint.isBlank o.className
    refine ⟨front, es ++ [(k, Text.trimEnd CodePoint.isBlank v)],
      ⟨Text.trimStart_subset _ _, ?_, ?_⟩, ?_⟩
    · simp [OrderedMap.keys, he]
    · intro e hm
      rcases List.mem_append.mp hm with hm | hm
      · exact ⟨e.2, by simp [he, hm], List.Subset.refl _⟩
      · rw [List.mem_singleton] at hm
        subst hm
        exact ⟨v, by simp [he], Text.trimEnd_subset _ _⟩
    · have hq : ∀ c ∈ (front ++ (encodeParameters es ++ comma :: k ++ [equals])).getLast?,
          c.isBlank = false := by
        rw [← List.append_assoc, List.getLast?_concat]
        rintro c ⟨⟩
        decide
      rw [encode, Text.trim, Text.trimStart_append isBlank_of_head?_encodeParameters, he,
        encodeParameters_append_singleton, encodeParameters_append_singleton, ← List.append_assoc,
        Text.trimEnd_append hq, List.append_assoc]

/-! ### The round trip -/

theorem decode_encode_of_trim {o : Observer} (h : o.encode.trim = o.encode) (key : Text) :
    decode key o.encode = .ok o := by
  obtain ⟨o', ho, hn, he⟩ := (IsRemnant.refl o).exists_decode h o.className_ne_nil
    (fun _ => value_ne_nil) key
  rw [ho, ext hn (OrderedMap.ext he)]

/-- The same class name and parameters, in whatever order. -/
def Matches (o o' : Observer) : Prop :=
  o.className = o'.className ∧ ∀ k, o.parameters.get? k = o'.parameters.get? k

/-- An observer's text reads as the observer exactly if it has no blanks at its ends. With blanks
there it is refused, or it reads as another observer. -/
theorem decode_encode_iff (o : Observer) (key : Text) :
    (decode key o.encode = .ok o ↔ o.encode.trim = o.encode) ∧
      (o.encode.trim ≠ o.encode →
        (∃ f, decode key o.encode = .error f ∧ f.category? = some .configuration) ∨
          ∃ o', decode key o.encode = .ok o' ∧ ¬ o'.Matches o) := by
  have hne (ht : o.encode.trim ≠ o.encode) :
      (∃ f, decode key o.encode = .error f ∧ f.category? = some .configuration) ∨
        ∃ o', decode key o.encode = .ok o' ∧ ¬ o'.Matches o := by
    obtain ⟨name, es, hr, hs⟩ := o.exists_isRemnant_trim
    by_cases hbad : name = [] ∨ ∃ e ∈ es, e.2 = []
    · exact .inl (hr.exists_decode_error hs hbad)
    · simp only [not_or, not_exists, not_and] at hbad
      obtain ⟨o', ho, hn, he⟩ := hr.exists_decode hs hbad.1 hbad.2 key
      refine .inr ⟨o', ho, fun hm => ht ?_⟩
      have hk : o'.parameters.keys = o.parameters.keys := by rw [OrderedMap.keys, he, hr.keys]
      rw [hs, ← hn, ← he, hm.1, OrderedMap.ext_get? hk hm.2, encode]
  refine ⟨⟨fun h => Decidable.byContradiction fun ht => ?_, fun h => decode_encode_of_trim h key⟩,
    hne⟩
  rcases hne ht with ⟨f, hf, -⟩ | ⟨o', ho, hm⟩
  · cases h.symm.trans hf
  · cases Except.ok.inj (h.symm.trans ho)
    exact hm ⟨rfl, fun _ => rfl⟩

end LayeredConfig.Observer
