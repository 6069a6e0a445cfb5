import LayeredConfig.Configuration
import LayeredConfig.Proofs.Alike
import LayeredConfig.Proofs.Properties.RoundTrip
import LayeredConfig.Proofs.Store.Reads
import LayeredConfig.Proofs.Store.References

/-! A store saved as a property file and loaded again. Where the store held a value of its own
type the loaded one holds its text, and every read ends alike on both. -/

namespace LayeredConfig.Store

/-- The store whose one source is what the property file of a store says. -/
def reloaded (s : Store) : Except Fault Store :=
  match Properties.writeValues? (s.resolved.entries.map fun e => (.text e.1, e.2)) with
  | none => .error .tooManyDigits
  | some t => do
    let m ← Properties.read t
    ofSources true [.entries (m.entries.map fun e => (.text e.1, .text e.2))]

/-- A store of texts that stands for a store of simple values. -/
structure IsTextOf (s' s : Store) : Prop where
  isStrict : s'.isStrict = s.isStrict
  keys : s'.keys = s.keys
  value (key : Text) : s.value key = .null ∧ s'.value key = .null ∨
    (s.value key).IsSimple ∧ s'.value key = .text (s.value key).rendered

/-! ### Loading -/

theorem ofSources_of_texts (m : OrderedMap Text) :
    ofSources true [.entries (m.entries.map fun e => (.text e.1, .text e.2))] =
      .ok ((empty true).addLayer (m.map Value.text)) := by
  have hm : Source.ofMap (m.map Value.text) =
      .entries (m.entries.map fun e => (.text e.1, .text e.2)) := by
    simp only [Source.ofMap, OrderedMap.map_entries, List.map_map, Function.comp_def]
  rw [← hm, ofSources, List.foldlM_cons, add_ofMap]
  rfl

theorem exists_reloaded {s : Store} (hs : s.isStrict = true)
    (hv : ∀ key ∈ s.keys, (s.value key).IsSimple)
    (hb : ∀ key ∈ s.keys, Properties.Unbroken key ∧ Properties.Unbroken (s.value key).rendered) :
    ∃ s', s.reloaded = .ok s' ∧ s'.IsTextOf s := by
  have hm : ∀ e ∈ s.resolved.entries, e.2.IsSimple := by
    rw [resolved_entries, List.forall_mem_map]
    exact hv
  have hr : Properties.read (Properties.write (s.resolved.map Value.rendered).entries) =
      .ok (s.resolved.map Value.rendered) := by
    apply Properties.read_write_of_unbroken
    rw [OrderedMap.map_entries, List.forall_mem_map, resolved_entries, List.forall_mem_map]
    exact hb
  let m := s.resolved.map Value.rendered
  refine ⟨(empty true).addLayer (m.map Value.text), ?_, hs.symm, ?_, ?_⟩
  · rw [reloaded, Properties.writeValues?_of_simple hm]
    change Properties.read _ >>= _ = _
    rw [hr]
    exact ofSources_of_texts m
  · rw [keys_empty_addLayer, OrderedMap.keys_map, OrderedMap.keys_map, keys_resolved]
  · intro key
    have hf : ((empty true).addLayer (m.map Value.text)).find? key =
        ((s.resolved.get? key).map Value.rendered).map Value.text := by
      rw [find?_addLayer, find?_empty, Option.none_or, OrderedMap.get?_map, OrderedMap.get?_map]
    rw [get?_resolved] at hf
    cases hc : s.contains key with
    | false =>
      rw [hc] at hf
      exact .inl ⟨value_of_not_contains hc, by rw [value, hf]; rfl⟩
    | true =>
      rw [hc] at hf
      exact .inr ⟨hv key (mem_keys_iff.mpr hc), by rw [value, hf]; rfl⟩

/-! ### Reading -/

namespace IsTextOf

variable {s' s : Store}

theorem contains (h : s'.IsTextOf s) (key : Text) : s'.contains key = s.contains key := by
  rw [Bool.eq_iff_iff, ← mem_keys_iff, ← mem_keys_iff, h.keys]

theorem readWith (h : s'.IsTextOf s) {α : Type} {key : Text} {convert : Value → Except Fault α}
    (hc : ∀ v : Value, v.IsSimple → EndsAlike (convert (.text v.rendered)) (convert v))
    (default? : Option Value) :
    EndsAlike (s'.readWith key default? convert) (s.readWith key default? convert) := by
  rcases h.value key with ⟨hv, hv'⟩ | ⟨hv, hv'⟩
  · rw [readWith_of_null hv, readWith_of_null hv', h.isStrict]
    exact .refl _
  · rw [readWith_of_ne_null hv.ne_null, readWith_of_ne_null (by simp [hv']), hv']
    exact (hc _ hv).map some

theorem resolve (h : s'.IsTextOf s) (env : Environment) (f : Text → Except Fault Text)
    (p : Piece) : s'.resolve env f p = s.resolve env f p := by
  cases p with
  | character c => rfl
  | reference name =>
    cases hn : Text.dropPrefix? environmentMark name with
    | some named => rw [resolve_of_environment hn, resolve_of_environment hn]
    | none =>
      rcases h.value name with ⟨hv, hv'⟩ | ⟨hv, hv'⟩
      · rw [resolve_of_null hn hv, resolve_of_null hn hv']
      · rw [resolve_of_ne_null hn hv.ne_null, resolve_of_ne_null hn (by simp [hv']), hv',
          hv.settingText]
        rfl

theorem expand (h : s'.IsTextOf s) (env : Environment) (depth : Nat) :
    s'.expand env depth = s.expand env depth := by
  induction depth with
  | zero => rfl
  | succ depth ih =>
    funext t
    rw [Store.expand, Store.expand, ih]
    have hr : s'.resolve env (s.expand env depth) = s.resolve env (s.expand env depth) :=
      funext fun p => h.resolve env _ p
    rw [hr]

/-! What is read as text is the same on both. -/

theorem shownText (h : s'.IsTextOf s) (env : Environment) : s'.shownText env = s.shownText env := by
  funext v
  rw [Store.shownText, Store.shownText]
  simp only [interpolate, h.expand env]

theorem getText (h : s'.IsTextOf s) (env : Environment) (key : Text) (default? : Option Value) :
    s'.getText env key default? = s.getText env key default? := by
  rw [getText_eq, getText_eq, h.shownText env]
  rcases h.value key with ⟨hv, hv'⟩ | ⟨hv, hv'⟩
  · rw [readWith_of_null hv, readWith_of_null hv', h.isStrict]
  · rw [readWith_of_ne_null hv.ne_null, readWith_of_ne_null (by simp [hv']), hv']
    rw [Store.shownText, Store.shownText, hv.settingText]
    rfl

theorem getTextValue (h : s'.IsTextOf s) (env : Environment) (key : Text)
    (default? : Option Value) :
    s'.getTextValue env key default? = s.getTextValue env key default? := by
  rw [Store.getTextValue, Store.getTextValue, h.getText]

theorem getNonEmpty (h : s'.IsTextOf s) (env : Environment) (key : Text)
    (default? : Option Value) :
    s'.getNonEmpty env key default? = s.getNonEmpty env key default? := by
  rw [Store.getNonEmpty, Store.getNonEmpty, h.getTextValue]

/-! Numbers and truth values end alike: a fault may show the value that was held or its text. -/

theorem getInteger (h : s'.IsTextOf s) (key : Text) (default? : Option Value) :
    EndsAlike (s'.getInteger key default?) (s.getInteger key default?) :=
  h.readWith (fun _ hv => hv.toInteger key) default?

theorem getTruth (h : s'.IsTextOf s) (key : Text) (default? : Option Value) :
    EndsAlike (s'.getTruth key default?) (s.getTruth key default?) :=
  h.readWith (fun _ hv => hv.toTruth key) default?

theorem getNumber (h : s'.IsTextOf s) (rule : Rule) (key : Text) (default? : Option Value) :
    EndsAlike (s'.getNumber rule key default?) (s.getNumber rule key default?) :=
  (h.getInteger key default?).bind _

end IsTextOf

end LayeredConfig.Store
