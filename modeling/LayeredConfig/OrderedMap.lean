import LayeredConfig.Text

/-! Maps from texts that keep the order in which keys were first added. Writing to a key that
is held keeps its place; a key that is erased and added again comes last. -/

namespace LayeredConfig

structure OrderedMap (α : Type) where
  entries : List (Text × α)
  nodup_keys : (entries.map Prod.fst).Nodup

namespace OrderedMap

variable {α : Type}

@[ext] theorem ext {m n : OrderedMap α} (h : m.entries = n.entries) : m = n := by
  cases m; cases n; simp_all

def empty : OrderedMap α := ⟨[], by simp⟩

instance : EmptyCollection (OrderedMap α) := ⟨empty⟩
instance : Inhabited (OrderedMap α) := ⟨empty⟩

def keys (m : OrderedMap α) : List Text := m.entries.map Prod.fst

def size (m : OrderedMap α) : Nat := m.entries.length

def isEmpty (m : OrderedMap α) : Bool := m.entries.isEmpty

def find? (key : Text) : List (Text × α) → Option α
  | [] => none
  | (k, v) :: rest => if k = key then some v else find? key rest

/-- Entries after a write: in place if the key is held, otherwise at the end. -/
def write (key : Text) (value : α) : List (Text × α) → List (Text × α)
  | [] => [(key, value)]
  | (k, v) :: rest => if k = key then (k, value) :: rest else (k, v) :: write key value rest

def get? (m : OrderedMap α) (key : Text) : Option α := find? key m.entries

def contains (m : OrderedMap α) (key : Text) : Bool := (m.get? key).isSome

theorem mem_keys_write {key k : Text} {value : α} {es : List (Text × α)} :
    k ∈ (write key value es).map Prod.fst ↔ k = key ∨ k ∈ es.map Prod.fst := by
  induction es with
  | nil => simp [write]
  | cons e rest ih =>
    obtain ⟨a, v⟩ := e
    by_cases h : a = key
    · simp [write, h]
    · simp only [write, h, if_false, List.map_cons, List.mem_cons, ih]
      exact or_left_comm

theorem nodup_write {key : Text} {value : α} {es : List (Text × α)}
    (h : (es.map Prod.fst).Nodup) : ((write key value es).map Prod.fst).Nodup := by
  induction es with
  | nil => simp [write]
  | cons e rest ih =>
    obtain ⟨a, v⟩ := e
    rw [List.map_cons, List.nodup_cons] at h
    by_cases ha : a = key
    · rw [write, if_pos ha, List.map_cons, List.nodup_cons]
      exact h
    · rw [write, if_neg ha, List.map_cons, List.nodup_cons]
      exact ⟨fun hm => (mem_keys_write.mp hm).elim ha h.1, ih h.2⟩

def insert (m : OrderedMap α) (key : Text) (value : α) : OrderedMap α :=
  ⟨write key value m.entries, nodup_write m.nodup_keys⟩

def erase (m : OrderedMap α) (key : Text) : OrderedMap α :=
  ⟨m.entries.filter fun e => e.1 ≠ key,
    (List.filter_sublist.map Prod.fst).nodup m.nodup_keys⟩

def update (m n : OrderedMap α) : OrderedMap α :=
  n.entries.foldl (fun m e => m.insert e.1 e.2) m

/-- The entries in order; a repeated key keeps its first place and its last value. -/
def ofList (es : List (Text × α)) : OrderedMap α :=
  es.foldl (fun m e => m.insert e.1 e.2) empty

def map {β : Type} (f : α → β) (m : OrderedMap α) : OrderedMap β :=
  ⟨m.entries.map fun e => (e.1, f e.2), by
    simpa [List.map_map, Function.comp_def] using m.nodup_keys⟩

def restrict (p : Text → Bool) (m : OrderedMap α) : OrderedMap α :=
  ⟨m.entries.filter fun e => p e.1, (List.filter_sublist.map Prod.fst).nodup m.nodup_keys⟩

@[simp] theorem find?_nil (key : Text) : find? key ([] : List (Text × α)) = none := rfl

theorem find?_write (key k : Text) (value : α) (es : List (Text × α)) :
    find? k (write key value es) = if key = k then some value else find? k es := by
  induction es with
  | nil => simp [write, find?]
  | cons e rest ih =>
    obtain ⟨a, v⟩ := e
    by_cases ha : a = key
    · by_cases hk : key = k <;> simp [write, find?, ha, hk]
    · by_cases hk : key = k
      · subst hk
        simp [write, find?, ha, ih]
      · simp [write, find?, ha, ih, hk]

theorem find?_filter_ne (key k : Text) (es : List (Text × α)) :
    find? k (es.filter fun e => e.1 ≠ key) = if key = k then none else find? k es := by
  induction es with
  | nil => simp
  | cons e rest ih =>
    obtain ⟨a, v⟩ := e
    by_cases ha : a = key <;> by_cases hk : key = k <;> simp_all [find?]

theorem find?_eq_none_iff {key : Text} {es : List (Text × α)} :
    find? key es = none ↔ key ∉ es.map Prod.fst := by
  induction es with
  | nil => simp
  | cons e rest ih =>
    obtain ⟨a, v⟩ := e
    by_cases ha : a = key
    · simp [find?, ha]
    · simp only [find?, ha, if_false, ih, List.map_cons, List.mem_cons, not_or]
      exact ⟨fun h => ⟨fun e => ha e.symm, h⟩, And.right⟩

theorem mem_write {key : Text} {value : α} {es : List (Text × α)} {e : Text × α}
    (h : e ∈ write key value es) : e = (key, value) ∨ e ∈ es := by
  induction es with
  | nil => exact .inl (List.mem_singleton.mp h)
  | cons a rest ih =>
    obtain ⟨k, v⟩ := a
    by_cases hk : k = key
    · subst hk
      rw [write, if_pos rfl] at h
      exact (List.mem_cons.mp h).imp id (List.mem_cons_of_mem _)
    · rw [write, if_neg hk] at h
      rcases List.mem_cons.mp h with h | h
      · exact .inr (h ▸ List.mem_cons_self)
      · exact (ih h).imp id (List.mem_cons_of_mem _)

theorem mem_update_entries {es : List (Text × α)} {m : OrderedMap α} {e : Text × α}
    (h : e ∈ (es.foldl (fun m e => m.insert e.1 e.2) m).entries) : e ∈ es ∨ e ∈ m.entries := by
  induction es generalizing m with
  | nil => exact .inr h
  | cons a rest ih =>
    rcases ih h with h | h
    · exact .inl (List.mem_cons_of_mem _ h)
    · rcases mem_write h with rfl | h
      · exact .inl List.mem_cons_self
      · exact .inr h

/-- Building a map makes up no entries. -/
theorem mem_of_mem_ofList {es : List (Text × α)} {e : Text × α}
    (h : e ∈ (ofList es).entries) : e ∈ es :=
  (mem_update_entries h).elim id (by simp [empty])

@[simp] theorem get?_empty (key : Text) : (empty : OrderedMap α).get? key = none := rfl

theorem get?_insert (m : OrderedMap α) (key k : Text) (value : α) :
    (m.insert key value).get? k = if key = k then some value else m.get? k :=
  find?_write key k value m.entries

@[simp] theorem get?_insert_self (m : OrderedMap α) (key : Text) (value : α) :
    (m.insert key value).get? key = some value := by simp [get?_insert]

theorem get?_erase (m : OrderedMap α) (key k : Text) :
    (m.erase key).get? k = if key = k then none else m.get? k :=
  find?_filter_ne key k m.entries

theorem get?_eq_none_iff {m : OrderedMap α} {key : Text} : m.get? key = none ↔ key ∉ m.keys :=
  find?_eq_none_iff

theorem contains_iff {m : OrderedMap α} {key : Text} : m.contains key = true ↔ key ∈ m.keys := by
  rw [contains, ← Option.ne_none_iff_isSome, ne_eq, get?_eq_none_iff, Decidable.not_not]

end OrderedMap

end LayeredConfig
