import LayeredConfig.Proofs.Configuration.Copy

/-! Stores as sources of other stores. An inner store is added with what it resolves to, so its
covered entries are gone; but a key is found where it is found without the nesting, and the keys
come in the same order. The two stores agree, and so they do after any changes to both. -/

namespace LayeredConfig

/-- What a store is put together from: mappings, and stores that are put together likewise. -/
inductive Nesting where
  | mapping (entries : List (Value × Value))
  | store (parts : List Nesting)

namespace Nesting

mutual

/-- An inner store is made before it becomes a source. -/
def source : Nesting → Except Fault Source
  | mapping entries => .ok (.entries entries)
  | store parts => (sources parts >>= Store.ofSources false).map .store

/-- All sources are made before the first of them is added. -/
def sources : List Nesting → Except Fault (List Source)
  | [] => .ok []
  | n :: ns => source n >>= fun x => sources ns >>= fun xs => .ok (x :: xs)

end

mutual

/-- The mappings alone, in their order. -/
def mappings : Nesting → List (List (Value × Value))
  | mapping entries => [entries]
  | store parts => mappingsOf parts

def mappingsOf : List Nesting → List (List (Value × Value))
  | [] => []
  | n :: ns => mappings n ++ mappingsOf ns

end

def make (parts : List Nesting) : Except Fault Store := sources parts >>= Store.ofSources false

end Nesting

namespace Store

def ofMappings (ms : List (List (Value × Value))) : Except Fault Store :=
  ofSources false (ms.map .entries)

theorem foldlM_add_eq (s : Store) (sources : List Source) : sources.foldlM add s =
    (sources.mapM Source.layer).map fun ls => { s with sources := s.sources ++ ls } := by
  induction sources generalizing s with
  | nil =>
    change Except.ok s = Except.ok { s with sources := s.sources ++ [] }
    rw [List.append_nil]
  | cons source sources ih =>
    rw [List.foldlM_cons, List.mapM_cons, add]
    cases source.layer with
    | error fault => rfl
    | ok l =>
      change sources.foldlM add (s.addLayer l) = _
      rw [ih]
      cases sources.mapM Source.layer with
      | error fault => rfl
      | ok ls =>
        change Except.ok { s with sources := s.sources ++ [l] ++ ls } = _
        rw [List.append_assoc]
        rfl

theorem ofSources_eq (isStrict : Bool) (sources : List Source) : ofSources isStrict sources =
    (sources.mapM Source.layer).map fun ls => ⟨.empty, ls, isStrict⟩ :=
  foldlM_add_eq (empty isStrict) sources

end Store

/-! ### Layers that hold the same -/

/-- Every key is found with the same value, and the keys come in the same order. -/
structure SameContent (ls ls' : List Layer) : Prop where
  findIn (key : Text) : Store.findIn key ls = Store.findIn key ls'
  keys : (ls.flatMap OrderedMap.keys).eraseDups = (ls'.flatMap OrderedMap.keys).eraseDups

theorem eraseDups_append_congr {ks ks' js js' : List Text} (hk : ks.eraseDups = ks'.eraseDups)
    (hj : js.eraseDups = js'.eraseDups) : (ks ++ js).eraseDups = (ks' ++ js').eraseDups := by
  have hm (k : Text) : ks.elem k = ks'.elem k := by
    rw [Bool.eq_iff_iff, List.elem_iff, List.elem_iff, ← List.mem_eraseDups, hk,
      List.mem_eraseDups]
  rw [List.eraseDups_append, List.eraseDups_append, List.removeAll, List.removeAll,
    ← OrderedMap.filter_eraseDups, ← OrderedMap.filter_eraseDups, hk, hj]
  simp only [hm]

namespace SameContent

variable {ls ls' ms ms' : List Layer}

theorem refl (ls : List Layer) : SameContent ls ls := ⟨fun _ => rfl, rfl⟩

theorem trans (h : SameContent ls ls') (h' : SameContent ls' ms) : SameContent ls ms :=
  ⟨fun key => (h.findIn key).trans (h'.findIn key), h.keys.trans h'.keys⟩

theorem append (h : SameContent ls ls') (h' : SameContent ms ms') :
    SameContent (ls ++ ms) (ls' ++ ms') where
  findIn key := by rw [Store.findIn_append, Store.findIn_append, h.findIn, h'.findIn]
  keys := by
    rw [List.flatMap_append, List.flatMap_append]
    exact eraseDups_append_congr h.keys h'.keys

/-- A layer of what a store resolves to stands for all its layers, the covered entries apart. -/
theorem resolved (s : Store) : SameContent [s.resolved] s.layers where
  findIn key := by
    have hf : Store.findIn key [s.resolved] = s.resolved.get? key := by
      rw [Store.findIn]
      cases s.resolved.get? key <;> rfl
    change _ = s.find? key
    rw [hf, Store.get?_resolved, Store.contains_eq_isSome, Store.value]
    cases s.find? key <;> rfl
  keys := by
    rw [List.flatMap_singleton, Store.keys_resolved, ← Store.keys_eq_eraseDups,
      OrderedMap.eraseDups_eq_self s.nodup_keys]

theorem empty_cons (ls : List Layer) : SameContent (.empty :: ls) ls := ⟨fun _ => rfl, rfl⟩

theorem keys_eq {t s : Store} (h : SameContent t.layers s.layers) : t.keys = s.keys := by
  rw [Store.keys_eq_eraseDups, Store.keys_eq_eraseDups, h.keys]

theorem agrees {t s : Store} (h : SameContent t.layers s.layers)
    (hs : t.isStrict = s.isStrict) : t.Agrees s := ⟨hs, h.findIn⟩

theorem resolved_eq {t s : Store} (h : SameContent t.layers s.layers) :
    t.resolved = s.resolved := by
  have hv (key : Text) : t.value key = s.value key := by
    rw [Store.value, Store.value]
    exact congrArg (Option.getD · Value.null) (h.findIn key)
  rw [Store.resolved, Store.resolved, h.keys_eq]
  simp only [hv]

end SameContent

/-! ### Stores of nested sources -/

/-- Both succeed with results that are so related, or a key without a text ends both. -/
inductive MadeAlike {α β : Type} (r : α → β → Prop) : Except Fault α → Except Fault β → Prop where
  | ok {a : α} {b : β} (h : r a b) : MadeAlike r (.ok a) (.ok b)
  | tooManyDigits : MadeAlike r (.error .tooManyDigits) (.error .tooManyDigits)

namespace MadeAlike

variable {α β γ δ : Type} {r : α → β → Prop} {q : γ → δ → Prop} {x : Except Fault α}
  {y : Except Fault β}

theorem eq_tooManyDigits (h : MadeAlike r x y) {fault : Fault} (hx : x = .error fault) :
    fault = .tooManyDigits := by
  cases h with
  | ok h => exact nomatch hx
  | tooManyDigits => exact (Except.error.inj hx).symm

theorem bind {f : α → Except Fault γ} {g : β → Except Fault δ} (h : MadeAlike r x y)
    (hf : ∀ a b, r a b → MadeAlike q (f a) (g b)) : MadeAlike q (x >>= f) (y >>= g) := by
  cases h with
  | ok h => exact hf _ _ h
  | tooManyDigits => exact .tooManyDigits

theorem map {f : α → γ} {g : β → δ} (h : MadeAlike r x y) (hr : ∀ a b, r a b → q (f a) (g b)) :
    MadeAlike q (x.map f) (y.map g) := by
  cases h with
  | ok h => exact .ok (hr _ _ h)
  | tooManyDigits => exact .tooManyDigits

end MadeAlike

theorem Layer.ofEntries_cases (entries : List (Value × Value)) :
    (∃ l, Layer.ofEntries entries = .ok l) ∨
      Layer.ofEntries entries = .error .tooManyDigits ∧ ∃ e ∈ entries, e.1.plain? = none := by
  rw [Layer.ofEntries]
  cases hm : entries.mapM Layer.entry with
  | ok es => exact .inl ⟨_, rfl⟩
  | error fault =>
    obtain ⟨e, he, hf⟩ := exists_of_mapM_eq_error hm
    rw [Layer.entry] at hf
    cases hp : e.1.plain? with
    | some k => simp [hp] at hf
    | none =>
      simp only [hp, Except.error.injEq] at hf
      subst hf
      exact .inr ⟨rfl, e, he, hp⟩

namespace Nesting

def layers (parts : List Nesting) : Except Fault (List Layer) :=
  sources parts >>= fun xs => xs.mapM Source.layer

theorem make_eq (parts : List Nesting) :
    make parts = (layers parts).map fun ls => ⟨.empty, ls, false⟩ := by
  rw [make, layers]
  cases sources parts with
  | error fault => rfl
  | ok xs => exact Store.ofSources_eq false xs

theorem source_store_layer (parts : List Nesting) : (source (.store parts) >>= Source.layer) =
    (layers parts).map fun ls => Store.resolved ⟨.empty, ls, false⟩ := by
  have hs : (source (.store parts) >>= Source.layer) = (make parts).map Store.resolved := by
    rw [source, make]
    cases sources parts >>= Store.ofSources false <;> rfl
  rw [hs, make_eq]
  cases layers parts <;> rfl

/-- All sources are made before one is added, but whichever fails, it fails for the same cause. -/
theorem layers_cons {n : Nesting} {ns : List Nesting}
    (hn : ∀ fault, (source n >>= Source.layer) = .error fault → fault = .tooManyDigits)
    (hs : ∀ fault, layers ns = .error fault → fault = .tooManyDigits) :
    layers (n :: ns) =
      source n >>= Source.layer >>= fun l => layers ns >>= fun ls => .ok (l :: ls) := by
  rw [layers] at hs ⊢
  rw [sources, layers]
  cases hx : source n with
  | error fault => rfl
  | ok x =>
    rw [hx] at hn
    cases hxs : sources ns with
    | ok xs =>
      change (x :: xs).mapM Source.layer = _
      rw [List.mapM_cons]
      rfl
    | error fault =>
      rw [hxs] at hs
      obtain rfl := hs fault rfl
      change _ = x.layer >>= fun _ => Except.error Fault.tooManyDigits
      cases hl : x.layer with
      | ok l => rfl
      | error fault =>
        obtain rfl := hn fault hl
        rfl

mutual

theorem source_madeAlike : ∀ n : Nesting, MadeAlike (fun l ls => SameContent [l] ls)
    (source n >>= Source.layer) ((mappings n).mapM Layer.ofEntries)
  | mapping entries => by
    rw [source, mappings, List.mapM_cons, List.mapM_nil]
    change MadeAlike _ (Layer.ofEntries entries) _
    rcases Layer.ofEntries_cases entries with ⟨l, hl⟩ | ⟨hl, -⟩
    · rw [hl]
      exact .ok (.refl [l])
    · rw [hl]
      exact .tooManyDigits
  | store parts => by
    have hid : ((mappingsOf parts).mapM Layer.ofEntries).map id =
        (mappingsOf parts).mapM Layer.ofEntries := congrFun Except.map_id _
    rw [source_store_layer, mappings, ← hid]
    refine (layers_madeAlike parts).map fun ls ls' h => ?_
    exact (SameContent.resolved _).trans ((SameContent.empty_cons ls).trans h)

theorem layers_madeAlike : ∀ ns : List Nesting,
    MadeAlike SameContent (layers ns) ((mappingsOf ns).mapM Layer.ofEntries)
  | [] => .ok (.refl [])
  | n :: ns => by
    have hn := source_madeAlike n
    have hs := layers_madeAlike ns
    rw [layers_cons (fun _ => hn.eq_tooManyDigits) (fun _ => hs.eq_tooManyDigits), mappingsOf,
      List.mapM_append]
    exact hn.bind fun l ls h => hs.bind fun ls' ms h' => .ok (h.append h')

end

theorem ofMappings_eq (ms : List (List (Value × Value))) : Store.ofMappings ms =
    (ms.mapM Layer.ofEntries).map fun ls => ⟨.empty, ls, false⟩ := by
  rw [Store.ofMappings, Store.ofSources_eq, List.mapM_map]
  rfl

theorem make_madeAlike (parts : List Nesting) :
    MadeAlike (fun t s => SameContent t.layers s.layers ∧ t.isStrict = s.isStrict) (make parts)
      (Store.ofMappings (mappingsOf parts)) := by
  rw [make_eq, ofMappings_eq]
  refine (layers_madeAlike parts).map fun ls ls' h => ⟨?_, rfl⟩
  exact (SameContent.refl [.empty]).append h

theorem exists_of_ofMappings_eq_error {ms : List (List (Value × Value))} {fault : Fault}
    (h : Store.ofMappings ms = .error fault) :
    ∃ entries ∈ ms, ∃ e ∈ entries, e.1.plain? = none := by
  rw [ofMappings_eq] at h
  cases hm : ms.mapM Layer.ofEntries with
  | ok ls => simp [hm, Except.map] at h
  | error fault' =>
    obtain ⟨entries, he, hl⟩ := exists_of_mapM_eq_error hm
    rcases Layer.ofEntries_cases entries with ⟨l, hl'⟩ | ⟨-, hk⟩
    · exact nomatch hl.symm.trans hl'
    · exact ⟨entries, he, hk⟩

/-- A nested store and the store of its mappings alone, one below the other, cannot be told apart:
they list the same keys and values in the same order, and after any changes to both each read and
check is the same. Only a key without a text keeps them from being made, and then both. -/
theorem make_readsSame (parts : List Nesting) :
    (make parts = .error .tooManyDigits ∧
        Store.ofMappings (mappingsOf parts) = .error .tooManyDigits ∧
        ∃ entries ∈ mappingsOf parts, ∃ e ∈ entries, e.1.plain? = none) ∨
      ∃ t s, make parts = .ok t ∧ Store.ofMappings (mappingsOf parts) = .ok s ∧
        t.keys = s.keys ∧ t.resolved = s.resolved ∧
        ∀ cs : List Change, (t.after cs).ReadsSame (s.after cs) := by
  have hm := make_madeAlike parts
  cases hs : Store.ofMappings (mappingsOf parts) with
  | error fault =>
    rw [hs] at hm
    generalize make parts = x at hm
    cases hm
    exact .inl ⟨rfl, rfl, exists_of_ofMappings_eq_error hs⟩
  | ok s =>
    rw [hs] at hm
    generalize make parts = x at hm
    cases hm with
    | ok h =>
      rename_i t
      exact .inr ⟨t, s, rfl, rfl, h.1.keys_eq, h.1.resolved_eq,
        fun cs => ((h.1.agrees h.2).after cs).readsSame⟩

example : (make [.store [.mapping [(.text "a", .int 1)],
      .store [.mapping [(.text "b", .int 2), (.text "a", .int 3)]]],
    .mapping [(.text "b", .null), (.text "c", .int 4)]]).map (fun s => (s.keys, s.sources.length)) =
      .ok (["a", "b", "c"], 2) := rfl

end Nesting

end LayeredConfig
