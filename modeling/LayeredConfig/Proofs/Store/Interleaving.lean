import LayeredConfig.Proofs.Store.Views

/-! Writes through several views of one store. A write touches the one key that its view makes of
the name, so only the views that hold a key below their prefix decide what becomes of it. Two
views with disjoint prefixes never share a key, so the order of their writes does not matter. -/

namespace LayeredConfig

theorem isWithin_append {space between rest rest' : Text}
    (h : .scalar '.' :: rest = between ++ .scalar '.' :: rest') :
    isWithin space (space ++ between) = true := by
  cases between with
  | nil => exact isWithin_iff.mpr (.inl (List.append_nil space))
  | cons c between =>
    obtain ⟨rfl, -⟩ := List.cons.inj h
    exact isWithin_iff.mpr (.inr ⟨between, rfl⟩)

/-- No key lies both in one space and in the other if neither lies within the other. -/
theorem isWithin_eq_false_of_apart {space space' key : Text} (h : isWithin space space' = false)
    (h' : isWithin space' space = false) (hk : isWithin space key = true) :
    isWithin space' key = false := by
  rw [Bool.eq_false_iff] at *
  intro hk'
  rcases isWithin_iff.mp hk with rfl | ⟨rest, rfl⟩
  · exact h' hk'
  rcases isWithin_iff.mp hk' with he | ⟨rest', he⟩
  · exact h (isWithin_iff.mpr (.inr ⟨rest, he.symm⟩))
  -- of the two spaces one is the beginning of the other, and a full stop follows it there
  · rcases List.append_eq_append_iff.mp he with ⟨between, rfl, hr⟩ | ⟨between, rfl, hr⟩
    · exact h (isWithin_append hr)
    · exact h' (isWithin_append hr)

/-! ### Writes -/

/-- A write through a view, under a name in the view. -/
inductive ViewWrite where
  | put (v : View) (name : Text) (x : Value)
  | erase (v : View) (name : Text)

namespace ViewWrite

def view : ViewWrite → View
  | put v _ _ => v
  | erase v _ => v

def key : ViewWrite → Text
  | put v name _ => v.fullKey name
  | erase v name => v.fullKey name

/-- What is held under the key afterwards. -/
def left : ViewWrite → Option Value
  | put _ _ x => if x.isNull then none else some x
  | erase _ _ => none

def apply (s : Store) : ViewWrite → Store
  | put v name x => v.put s name x
  | erase v name => v.erase s name

theorem isWithin_key (w : ViewWrite) : isWithin w.view.space w.key = true := by
  cases w with
  | put v name x => exact v.isWithin_fullKey name
  | erase v name => exact v.isWithin_fullKey name

theorem find?_apply (w : ViewWrite) (s : Store) (key : Text) :
    (w.apply s).find? key = if w.key = key then w.left else s.find? key := by
  cases w with
  | put v name x => exact Store.find?_put s (v.fullKey name) x key
  | erase v name => exact Store.find?_erase s (v.fullKey name) key

theorem restrict_apply {p : Text → Bool} {w : ViewWrite} (h : p w.key = false) (s : Store) :
    (w.apply s).mapLayers (OrderedMap.restrict p) = s.mapLayers (OrderedMap.restrict p) := by
  have he {key : Text} (hk : p key = false) : (s.erase key).mapLayers (OrderedMap.restrict p) =
      s.mapLayers (OrderedMap.restrict p) := by
    simp only [Store.erase, Store.mapLayers, List.map_map, Function.comp_def,
      OrderedMap.restrict_erase_of_not hk]
  cases w with
  | erase v name => exact he h
  | put v name x =>
    rw [apply, View.put, Store.put]
    split_ifs with hx
    · exact he h
    · have hi : (s.written.insert (v.fullKey name) x).restrict p = s.written.restrict p :=
        OrderedMap.restrict_insert_of_not h s.written x
      simp only [Store.mapLayers, hi]

end ViewWrite

namespace Store

def afterWrites (s : Store) (ws : List ViewWrite) : Store := ws.foldl (fun s w => w.apply s) s

theorem restrict_afterWrites {p : Text → Bool} {ws : List ViewWrite}
    (h : ∀ w ∈ ws, p w.key = false) (s : Store) :
    (s.afterWrites ws).mapLayers (OrderedMap.restrict p) = s.mapLayers (OrderedMap.restrict p) := by
  induction ws generalizing s with
  | nil => rfl
  | cons w ws ih =>
    obtain ⟨hw, hws⟩ := List.forall_mem_cons.mp h
    exact (ih hws (w.apply s)).trans (w.restrict_apply hw s)

/-- What becomes of a key is decided by the writes of the views below whose prefix it lies. -/
theorem find?_afterWrites_filter {s t : Store} {key : Text} (h : s.find? key = t.find? key)
    (ws : List ViewWrite) : (s.afterWrites ws).find? key =
      (t.afterWrites (ws.filter fun w => isWithin w.view.space key)).find? key := by
  induction ws generalizing s t with
  | nil => exact h
  | cons w ws ih =>
    by_cases hw : isWithin w.view.space key = true
    · rw [List.filter_cons_of_pos (by exact hw)]
      exact ih (by rw [w.find?_apply, w.find?_apply, h])
    · have hne : w.key ≠ key := fun he => hw (he ▸ w.isWithin_key)
      rw [List.filter_cons_of_neg (by exact hw)]
      exact ih (by rw [w.find?_apply, if_neg hne, h])

end Store

/-! ### Interleavings -/

/-- The last list runs through the two others, each in its own order. -/
inductive IsInterleaving {α : Type} : List α → List α → List α → Prop where
  | nil : IsInterleaving [] [] []
  | left {a : α} {as bs cs : List α} (h : IsInterleaving as bs cs) :
    IsInterleaving (a :: as) bs (a :: cs)
  | right {b : α} {as bs cs : List α} (h : IsInterleaving as bs cs) :
    IsInterleaving as (b :: bs) (b :: cs)

namespace IsInterleaving

variable {α : Type} {as bs cs : List α}

theorem filter_of_left {p : α → Bool} (h : IsInterleaving as bs cs) (ha : ∀ a ∈ as, p a = true)
    (hb : ∀ b ∈ bs, p b = false) : cs.filter p = as := by
  induction h with
  | nil => rfl
  | left _ ih =>
    obtain ⟨hp, ha⟩ := List.forall_mem_cons.mp ha
    rw [List.filter_cons_of_pos hp, ih ha hb]
  | right _ ih =>
    obtain ⟨hp, hb⟩ := List.forall_mem_cons.mp hb
    rw [List.filter_cons_of_neg (by simp [hp]), ih ha hb]

theorem swap (h : IsInterleaving as bs cs) : IsInterleaving bs as cs := by
  induction h with
  | nil => exact .nil
  | left _ ih => exact .right ih
  | right _ ih => exact .left ih

theorem mem_or (h : IsInterleaving as bs cs) {c : α} (hc : c ∈ cs) : c ∈ as ∨ c ∈ bs := by
  induction h with
  | nil => exact .inl hc
  | left _ ih =>
    rcases List.mem_cons.mp hc with rfl | hc
    · exact .inl List.mem_cons_self
    · exact (ih hc).imp_left (List.mem_cons_of_mem _)
  | right _ ih =>
    rcases List.mem_cons.mp hc with rfl | hc
    · exact .inr List.mem_cons_self
    · exact (ih hc).imp_right (List.mem_cons_of_mem _)

end IsInterleaving

namespace Store

variable {s : Store} {p q : View} {as bs ws ws' : List ViewWrite}

/-- Below the prefix of one view the writes of the other view are not seen. -/
theorem find?_of_isInterleaving {key : Text} (ha : ∀ w ∈ as, w.view = p)
    (hb : ∀ w ∈ bs, w.view = q) (h : IsInterleaving as bs ws)
    (hp : isWithin p.space key = true) (hq : isWithin q.space key = false) :
    (s.afterWrites ws).find? key = (s.afterWrites as).find? key := by
  have hf : (ws.filter fun w => isWithin w.view.space key) = as :=
    h.filter_of_left (fun w hw => ha w hw ▸ hp) (fun w hw => hb w hw ▸ hq)
  rw [find?_afterWrites_filter rfl, hf]

theorem find?_of_not_isWithin {key : Text} (h : ∀ w ∈ ws, isWithin w.view.space key = false) :
    (s.afterWrites ws).find? key = s.find? key := by
  have hf : (ws.filter fun w => isWithin w.view.space key) = [] :=
    List.filter_eq_nil_iff.mpr fun w hw => by simp [h w hw]
  rw [find?_afterWrites_filter rfl, hf]
  rfl

/-- Two views with disjoint prefixes do not interfere. What lies outside of its prefix is out of
reach of a view, in every layer and in its order. And however the writes of both come in turns,
the same is held in the end. -/
theorem afterWrites_apart (s : Store) {p q : View} (hpq : isWithin p.space q.space = false)
    (hqp : isWithin q.space p.space = false) :
    (∀ ws : List ViewWrite, (∀ w ∈ ws, w.view = p) →
      (s.afterWrites ws).mapLayers (OrderedMap.restrict fun key => !isWithin p.space key) =
        s.mapLayers (OrderedMap.restrict fun key => !isWithin p.space key)) ∧
    ∀ as bs ws ws' : List ViewWrite, (∀ w ∈ as, w.view = p) → (∀ w ∈ bs, w.view = q) →
      IsInterleaving as bs ws → IsInterleaving as bs ws' →
      ∀ key, (s.afterWrites ws).value key = (s.afterWrites ws').value key := by
  constructor
  · intro ws hws
    refine restrict_afterWrites (fun w hw => ?_) s
    rw [← hws w hw, w.isWithin_key, Bool.not_true]
  · intro as bs ws ws' ha hb h h' key
    rw [value, value]
    refine congrArg (Option.getD · Value.null) ?_
    by_cases hp : isWithin p.space key = true
    · have hq := isWithin_eq_false_of_apart hpq hqp hp
      rw [find?_of_isInterleaving ha hb h hp hq, find?_of_isInterleaving ha hb h' hp hq]
    by_cases hq : isWithin q.space key = true
    · rw [Bool.not_eq_true] at hp
      rw [find?_of_isInterleaving hb ha h.swap hq hp, find?_of_isInterleaving hb ha h'.swap hq hp]
    · have hn {ws : List ViewWrite} (h : IsInterleaving as bs ws) :
          ∀ w ∈ ws, isWithin w.view.space key = false := by
        intro w hw
        rcases h.mem_or hw with hm | hm
        · exact ha w hm ▸ Bool.eq_false_iff.mpr hp
        · exact hb w hm ▸ Bool.eq_false_iff.mpr hq
      rw [find?_of_not_isWithin (hn h), find?_of_not_isWithin (hn h')]

/-! Two prefixes that begin alike, with keys of both in two layers. -/

def siblings : Store :=
  ⟨.ofList [("ab", .int 1), ("a", .int 2)],
    [.ofList [("a.x", .int 3), ("ab.x", .int 4), ("a", .int 5)]], false⟩

def shorterWrites : List ViewWrite := [.put ⟨"a"⟩ "x" (.int 6), .put ⟨"a"⟩ [] .null]

def longerWrites : List ViewWrite := [.erase ⟨"ab"⟩ "x", .put ⟨"ab"⟩ "y" (.int 7)]

theorem siblings_apart : ∃ ws ws' : List ViewWrite, ws ≠ ws' ∧
    IsInterleaving shorterWrites longerWrites ws ∧ IsInterleaving shorterWrites longerWrites ws' ∧
    (siblings.afterWrites shorterWrites).mapLayers
        (OrderedMap.restrict fun key => !isWithin "a" key) =
      siblings.mapLayers (OrderedMap.restrict fun key => !isWithin "a" key) ∧
    (∀ key, (siblings.afterWrites ws).value key = (siblings.afterWrites ws').value key) ∧
    (siblings.afterWrites ws).value "a" = .null ∧ (siblings.afterWrites ws').value "ab" = .int 1 := by
  obtain ⟨hframe, hsame⟩ :=
    afterWrites_apart siblings (p := ⟨"a"⟩) (q := ⟨"ab"⟩) (by decide) (by decide)
  have ha : ∀ w ∈ shorterWrites, w.view = ⟨"a"⟩ := by
    rw [shorterWrites]
    simp [ViewWrite.view]
  have hb : ∀ w ∈ longerWrites, w.view = ⟨"ab"⟩ := by
    rw [longerWrites]
    simp [ViewWrite.view]
  have h : IsInterleaving shorterWrites longerWrites (shorterWrites ++ longerWrites) :=
    .left (.left (.right (.right .nil)))
  have h' : IsInterleaving shorterWrites longerWrites (longerWrites ++ shorterWrites) :=
    .right (.right (.left (.left .nil)))
  refine ⟨_, _, ?_, h, h', hframe _ ha, hsame _ _ _ _ ha hb h h', rfl, rfl⟩
  simp [shorterWrites, longerWrites]

end Store

end LayeredConfig
