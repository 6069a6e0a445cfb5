import LayeredConfig.Document
import LayeredConfig.Proofs.OrderedMap
import LayeredConfig.Proofs.Traversal

/-! Flattening told from the leaves of a document. Each table is flattened on its own and then
merged, but the result is that of one pass over the leaves from first to last, each under the
names that lead to it, joined by full stops; and so is the array that is refused. -/

namespace LayeredConfig.Document

/-- Tables within tables, with texts for keys. -/
inductive IsDocument : List (Value × Value) → Prop where
  | nil : IsDocument []
  | leaf {key : Text} {v : Value} {rest : List (Value × Value)} (hv : ∀ es, v ≠ .map es)
    (h : IsDocument rest) : IsDocument ((.text key, v) :: rest)
  | table {key : Text} {inner rest : List (Value × Value)} (hi : IsDocument inner)
    (h : IsDocument rest) : IsDocument ((.text key, .map inner) :: rest)

mutual

/-- The values in a value that are no tables, each with the keys that lead to it, in document
order. -/
def leavesIn : Value → List (List Text × Value)
  | .map es => leaves es
  | v => [([], v)]

def leaves : List (Value × Value) → List (List Text × Value)
  | [] => []
  | (.text key, v) :: rest => (leavesIn v).map (fun e => (key :: e.1, e.2)) ++ leaves rest
  | _ :: rest => leaves rest

end

/-- A value at some depth of a document, a table or not, below the keys that lead to it. -/
inductive Stands : List (Value × Value) → List Text → Value → Prop where
  | here {es : List (Value × Value)} {key : Text} {v : Value} (h : (.text key, v) ∈ es) :
    Stands es [key] v
  | within {es inner : List (Value × Value)} {key : Text} {path : List Text} {v : Value}
    (h : (.text key, .map inner) ∈ es) (hi : Stands inner path v) : Stands es (key :: path) v

def isArray : Value → Bool
  | .list _ => true
  | _ => false

/-- Names joined by full stops. Empty names in front leave nothing. -/
def fullName (names : List Text) : Text := Text.join "." (names.dropWhile List.isEmpty)

/-- The leaves under their full names. -/
def named (above : Text) (es : List (Value × Value)) : List (Text × Value) :=
  (leaves es).map fun e => (fullName (above :: e.1), e.2)

variable {above key : Text} {v : Value} {es rest inner : List (Value × Value)}

/-! ### Leaves -/

theorem isArray_iff : isArray v = true ↔ ∃ items, v = .list items := by
  cases v <;> simp [isArray]

theorem leaves_leaf (hv : ∀ es, v ≠ .map es) :
    leaves ((.text key, v) :: rest) = ([key], v) :: leaves rest := by
  cases v with
  | map es => exact absurd rfl (hv es)
  | _ => rfl

theorem leaves_table : leaves ((.text key, .map inner) :: rest) =
    (leaves inner).map (fun e => (key :: e.1, e.2)) ++ leaves rest := rfl

theorem not_stands_nil {path : List Text} : ¬ Stands [] path v := by
  intro h
  cases h with
  | here h => exact absurd h List.not_mem_nil
  | within h => exact absurd h List.not_mem_nil

theorem Stands.cons {e : Value × Value} {path : List Text} (h : Stands rest path v) :
    Stands (e :: rest) path v := by
  cases h with
  | here h => exact .here (List.mem_cons_of_mem e h)
  | within h hi => exact .within (List.mem_cons_of_mem e h) hi

theorem stands_cons_iff {w : Value} {path : List Text} :
    Stands ((.text key, w) :: rest) path v ↔ (path = [key] ∧ v = w) ∨
      (∃ inner path', w = .map inner ∧ path = key :: path' ∧ Stands inner path' v) ∨
      Stands rest path v := by
  constructor
  · intro h
    cases h with
    | here h =>
      rcases List.mem_cons.mp h with he | h
      · cases he
        exact .inl ⟨rfl, rfl⟩
      · exact .inr (.inr (.here h))
    | within h hi =>
      rcases List.mem_cons.mp h with he | h
      · cases he
        exact .inr (.inl ⟨_, _, rfl, rfl, hi⟩)
      · exact .inr (.inr (.within h hi))
  · rintro (⟨rfl, rfl⟩ | ⟨inner, path', rfl, rfl, hi⟩ | h)
    · exact .here List.mem_cons_self
    · exact .within List.mem_cons_self hi
    · exact h.cons

/-- The leaves are just what stands in the document and is no table. -/
theorem IsDocument.mem_leaves_iff (h : IsDocument es) {path : List Text} {v : Value} :
    (path, v) ∈ leaves es ↔ Stands es path v ∧ ∀ inner, v ≠ .map inner := by
  induction h generalizing path v with
  | nil => simp [leaves, not_stands_nil]
  | leaf hw _ ih =>
    rw [leaves_leaf hw, List.mem_cons, Prod.mk.injEq, ih, stands_cons_iff]
    constructor
    · rintro (⟨rfl, rfl⟩ | ⟨hs, hv⟩)
      · exact ⟨.inl ⟨rfl, rfl⟩, hw⟩
      · exact ⟨.inr (.inr hs), hv⟩
    · rintro ⟨he | ⟨inner, -, rfl, -⟩ | hs, hv⟩
      · exact .inl he
      · exact absurd rfl (hw inner)
      · exact .inr ⟨hs, hv⟩
  | table _ _ ihi ih =>
    rw [leaves_table, List.mem_append, List.mem_map, ih, stands_cons_iff]
    constructor
    · rintro (⟨⟨path', w⟩, he, hp⟩ | ⟨hs, hv⟩)
      · cases hp
        obtain ⟨hs, hv⟩ := ihi.mp he
        exact ⟨.inr (.inl ⟨_, path', rfl, rfl, hs⟩), hv⟩
      · exact ⟨.inr (.inr hs), hv⟩
    · rintro ⟨⟨-, rfl⟩ | ⟨inner, path', he, rfl, hs⟩ | hs, hv⟩
      · exact absurd rfl (hv _)
      · cases he
        exact .inl ⟨(path', v), ihi.mpr ⟨hs, hv⟩, rfl⟩
      · exact .inr ⟨hs, hv⟩

/-! ### Full names -/

theorem fullName_pair (above key : Text) : fullName [above, key] = fullKey above key := by
  cases above with
  | nil => cases key <;> simp [fullName, fullKey, Text.join]
  | cons c above => simp [fullName, fullKey, Text.join]

/-- The key of a table is all that its entries need to know of what is above them. -/
theorem fullName_cons_cons (above key : Text) (path : List Text) :
    fullName (above :: key :: path) = fullName (fullKey above key :: path) := by
  cases above with
  | nil => simp [fullName, fullKey]
  | cons c above => cases path <;> simp [fullName, fullKey, Text.join]

theorem named_leaf (hv : ∀ es, v ≠ .map es) (above : Text) :
    named above ((.text key, v) :: rest) = (fullKey above key, v) :: named above rest := by
  rw [named, leaves_leaf hv, List.map_cons, fullName_pair]
  rfl

theorem named_table (above : Text) : named above ((.text key, .map inner) :: rest) =
    named (fullKey above key) inner ++ named above rest := by
  simp only [named, leaves_table, List.map_append, List.map_map, Function.comp_def,
    fullName_cons_cons]

/-! ### Flattening -/

/-- Entries that are written one after the other, up to the first array. -/
def written (flat : OrderedMap Value) (es : List (Text × Value)) :
    Except Fault (OrderedMap Value) :=
  match es.find? fun e => isArray e.2 with
  | some e => .error (.arrayValue e.1)
  | none => .ok (es.foldl (fun m e => m.insert e.1 e.2) flat)

theorem flattenOnto_leaf (hv : ∀ es, v ≠ .map es) (ha : isArray v = false)
    (flat : OrderedMap Value) (above : Text) : flattenOnto flat above ((.text key, v) :: rest) =
      flattenOnto (flat.insert (fullKey above key) v) above rest := by
  have hk : (Value.text key).plain? = some key := rfl
  have hl : ∀ items, v = .list items → False := by
    intro items he
    have hi : isArray v = true := isArray_iff.mpr ⟨items, he⟩
    simp [ha] at hi
  exact flattenOnto.eq_5 _ _ _ _ _ _ hk hl hv

theorem flattenOnto_eq (h : IsDocument es) (flat : OrderedMap Value) (above : Text) :
    flattenOnto flat above es = written flat (named above es) := by
  induction h generalizing flat above with
  | nil => simp [flattenOnto, named, leaves, written]
  | @leaf key v rest hv _ ih =>
    rw [named_leaf hv]
    cases ha : isArray v with
    | true =>
      obtain ⟨items, rfl⟩ := isArray_iff.mp ha
      simp [flattenOnto, Value.plain?, written, isArray]
    | false => simp [flattenOnto_leaf hv ha, ih, written, ha]
  | @table key inner rest _ _ ihi ih =>
    have hk : (Value.text key).plain? = some key := rfl
    simp only [flattenOnto, hk, ihi, ih, named_table, written, List.find?_append]
    cases (named (fullKey above key) inner).find? fun e => isArray e.2 with
    | some e => rfl
    | none =>
      -- the table is collected on its own, and then written entry by entry
      have hu := OrderedMap.update_ofList flat (named (fullKey above key) inner)
      rw [List.foldl_append, ← hu]
      rfl

theorem find?_named (above : Text) (es : List (Value × Value)) :
    ((named above es).find? fun e => isArray e.2) =
      ((leaves es).find? fun e => isArray e.2).map fun e => (fullName (above :: e.1), e.2) := by
  rw [named, List.find?_map]
  rfl

theorem IsDocument.stands_list_iff (h : IsDocument es) {path : List Text} {items : List Value} :
    Stands es path (.list items) ↔ (path, .list items) ∈ leaves es := by
  rw [h.mem_leaves_iff, and_iff_left]
  simp

/-- A document is refused exactly if an array stands in it, by the full name of the first one.
Otherwise it is flattened to its leaves under their full names, of which a repeated one keeps its
first place and its last value. -/
theorem flatten_cases (h : IsDocument es) (above : Text) :
    ((∃ fault, flatten above es = .error fault) ↔
        ∃ path items, Stands es path (.list items)) ∧
      ((∃ before path items after fault, leaves es = before ++ (path, .list items) :: after ∧
          (∀ e ∈ before, isArray e.2 = false) ∧ flatten above es = .error fault ∧
          fault = .arrayValue (fullName (above :: path)) ∧
          fault.category? = some .configuration) ∨
        ∃ m, flatten above es = .ok m ∧ m = .ofList (named above es) ∧
          m.keys = ((named above es).map Prod.fst).eraseDups ∧
          ∀ key, m.get? key = OrderedMap.find? key (named above es).reverse) := by
  have hw : flatten above es = written .empty (named above es) := flattenOnto_eq h .empty above
  rw [hw, written, find?_named]
  cases hf : (leaves es).find? fun e => isArray e.2 with
  | none =>
    have hn : ¬ ∃ path items, Stands es path (.list items) := by
      rintro ⟨path, items, hs⟩
      exact List.find?_eq_none.mp hf _ (h.stands_list_iff.mp hs) rfl
    refine ⟨iff_of_false (fun ⟨_, he⟩ => nomatch he) hn, .inr ⟨_, rfl, rfl, ?_, ?_⟩⟩
    · exact OrderedMap.keys_ofList _
    · exact OrderedMap.get?_ofList _
  | some e =>
    obtain ⟨path, v⟩ := e
    obtain ⟨ha, before, after, hl, hb⟩ := List.find?_eq_some_iff_append.mp hf
    obtain ⟨items, rfl⟩ := isArray_iff.mp ha
    have hm : (path, .list items) ∈ leaves es := List.mem_of_find?_eq_some hf
    refine ⟨iff_of_true ⟨_, rfl⟩ ⟨path, items, h.stands_list_iff.mpr hm⟩, .inl ?_⟩
    exact ⟨before, path, items, after, _, hl, fun e he => by simpa using hb e he, rfl, rfl, rfl⟩

/-- Empty names in front and further down, an empty table, and a key with a full stop that is
also the full name of an entry of a table. -/
def crossing : List (Value × Value) := [
  (.text [], .map [(.text [], .map []), (.text "c", .int 1)]),
  (.text "a", .map [(.text "b", .int 2), (.text [], .int 3)]), (.text "a.b", .int 4)]

theorem crossing_flatten : IsDocument crossing ∧ ∃ m, flatten [] crossing = .ok m ∧
    m.keys = (["c", "a.b", "a."] : List Text) ∧ m.get? "a.b" = some (.int 4) := by
  have hd : IsDocument crossing := .table (.table .nil (.leaf nofun .nil))
    (.table (.leaf nofun (.leaf nofun .nil)) (.leaf nofun .nil))
  refine ⟨hd, ?_⟩
  rcases (flatten_cases hd []).2 with hr | ⟨m, hm, -, hk, hg⟩
  · obtain ⟨before, path, items, after, fault, hl, -⟩ := hr
    have hmem : (path, .list items) ∈ leaves crossing := hl ▸ by simp
    simp [crossing, leaves, leavesIn] at hmem
  · exact ⟨m, hm, hk.trans (by decide), (hg "a.b").trans rfl⟩

end LayeredConfig.Document
