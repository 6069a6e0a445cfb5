import Mathlib.Tactic.SplitIfs
import LayeredConfig.Toml.Reader

/-! The values of a document are filled: nothing that is read is null, and no table has an entry
that is. Lists are left open, as what is in them is never flattened. -/

namespace LayeredConfig

inductive Value.IsFilled : Value → Prop where
  | leaf {v : Value} (hn : v ≠ .null) (hm : ∀ es, v ≠ .map es) : IsFilled v
  | map {es : List (Value × Value)} (h : ∀ e ∈ es, IsFilled e.2) : IsFilled (.map es)

namespace Toml

inductive Node.IsFilled : Node → Prop where
  | value {v : Value} (hn : v ≠ .null) (hm : ∀ es, v ≠ .map es) : IsFilled (.value v)
  | table {origin : Origin} {es : Entries} (h : ∀ e ∈ es, IsFilled e.2) :
      IsFilled (.table origin es)
  | tables {finished : List Entries} {es : Entries} : IsFilled (.tables finished es)

def Entries.IsFilled (es : Entries) : Prop := ∀ e ∈ es, e.2.IsFilled

theorem Node.IsFilled.toValue {n : Node} (h : n.IsFilled) : n.toValue.IsFilled := by
  induction h with
  | value hn hm => exact .leaf hn hm
  | @table origin es h ih =>
    rw [Node.toValue]
    refine .map ?_
    induction es with
    | nil => simp [entryValues]
    | cons e es ihs =>
      obtain ⟨k, n⟩ := e
      rw [entryValues, List.forall_mem_cons]
      exact ⟨ih _ List.mem_cons_self, ihs (fun e he => h e (List.mem_cons_of_mem _ he))
        fun e he => ih e (List.mem_cons_of_mem _ he)⟩
  | tables => exact .leaf nofun nofun

namespace Entries

variable {es es' : Entries}

theorem IsFilled.nil : IsFilled [] := by simp [IsFilled]

theorem IsFilled.cons {k : Text} {n : Node} (hn : n.IsFilled) (h : es.IsFilled) :
    IsFilled ((k, n) :: es) := List.forall_mem_cons.mpr ⟨hn, h⟩

/-- A change of one key keeps entries filled if what it makes of the node there is filled. -/
theorem IsFilled.alter {key : Text} {f : Option Node → Option Node} (h : es.IsFilled)
    (hf : ∀ o n, (∀ m ∈ o, Node.IsFilled m) → f o = some n → n.IsFilled)
    (ha : alter key f es = some es') : es'.IsFilled := by
  induction es generalizing es' with
  | nil =>
    obtain ⟨n, hn, rfl⟩ := Option.map_eq_some_iff.mp ha
    exact .cons (hf none n (by simp) hn) .nil
  | cons e es ih =>
    obtain ⟨k, m⟩ := e
    obtain ⟨hm, hes⟩ := List.forall_mem_cons.mp h
    rw [Entries.alter] at ha
    by_cases hk : k = key
    · rw [if_pos hk] at ha
      obtain ⟨n, hn, rfl⟩ := Option.map_eq_some_iff.mp ha
      exact .cons (hf (some m) n (by simpa using hm) hn) hes
    · rw [if_neg hk] at ha
      obtain ⟨fs, hfs, rfl⟩ := Option.map_eq_some_iff.mp ha
      exact .cons hm (ih hes hfs)

theorem IsFilled.within {change : Entries → Option Entries} {path : List Text} (h : es.IsFilled)
    (hc : ∀ es es' : Entries, es.IsFilled → change es = some es' → es'.IsFilled)
    (hw : within change path es = some es') : es'.IsFilled := by
  induction path generalizing es es' with
  | nil => exact hc es es' h hw
  | cons key path ih =>
    refine h.alter (fun o n ho hn => ?_) hw
    cases o with
    | none =>
      obtain ⟨fs, hfs, rfl⟩ := Option.map_eq_some_iff.mp hn
      exact .table (ih .nil hfs)
    | some m =>
      cases m with
      | value v => simp at hn
      | tables finished inner =>
        obtain ⟨fs, hfs, rfl⟩ := Option.map_eq_some_iff.mp hn
        exact .tables
      | table origin inner =>
        cases ho _ rfl with
        | table hi =>
          cases origin with
          | «sealed» => simp at hn
          | implied | declared | dotted =>
            obtain ⟨fs, hfs, rfl⟩ := Option.map_eq_some_iff.mp hn
            exact .table (ih hi hfs)

theorem IsFilled.declare {key : Text} (h : es.IsFilled) (hd : declare key es = some es') :
    es'.IsFilled := by
  refine h.alter (fun o n ho hn => ?_) hd
  split at hn
  · cases hn
    exact .table (by simp)
  · cases hn
    cases ho _ rfl with
    | table hi => exact .table hi
  · exact nomatch hn

theorem IsFilled.declareNext {key : Text} (h : es.IsFilled) (hd : declareNext key es = some es') :
    es'.IsFilled := by
  refine h.alter (fun o n _ hn => ?_) hd
  split at hn
  · cases hn
    exact .tables
  · cases hn
    exact .tables
  · exact nomatch hn

theorem IsFilled.add {node : Node} {path : List Text} (h : es.IsFilled) (hn : node.IsFilled)
    (ha : add node path es = some es') : es'.IsFilled := by
  induction path generalizing es es' with
  | nil => exact nomatch ha
  | cons key path ih =>
    cases path with
    | nil =>
      refine h.alter (fun o n ho hf => ?_) ha
      split at hf
      · exact Option.some.inj hf ▸ hn
      · exact nomatch hf
    | cons next path =>
      refine h.alter (fun o n ho hf => ?_) ha
      split at hf
      · obtain ⟨fs, hfs, rfl⟩ := Option.map_eq_some_iff.mp hf
        exact .table (ih .nil hfs)
      · obtain ⟨fs, hfs, rfl⟩ := Option.map_eq_some_iff.mp hf
        cases ho _ rfl with
        | table hi => exact .table (ih hi hfs)
      · obtain ⟨fs, hfs, rfl⟩ := Option.map_eq_some_iff.mp hf
        cases ho _ rfl with
        | table hi => exact .table (ih hi hfs)
      · exact nomatch hf

end Entries

/-! ### Reading -/

theorem isFilled_of_word {t rest : Text} {v : Value} (h : word t = some (v, rest)) :
    (Node.value v).IsFilled := by
  have hw : ∀ w, ofWord? w = some v → (Node.value v).IsFilled := by
    intro w hw
    rw [ofWord?] at hw
    split_ifs at hw
    · cases hw
      exact .value nofun nofun
    · cases hw
      exact .value nofun nofun
    · simp only [Option.orElse_eq_orElse, Option.orElse_eq_or, Option.or_eq_some_iff,
        Option.map_eq_some_iff] at hw
      rcases hw with ⟨n, -, rfl⟩ | ⟨-, ⟨x, -, rfl⟩ | ⟨-, m, -, rfl⟩⟩ <;> exact .value nofun nofun
  simp only [word] at h
  split_ifs at h
  · obtain ⟨u, hu, he⟩ := Option.bind_eq_some_iff.mp h
    cases he
    exact hw _ hu
  · obtain ⟨u, hu, he⟩ := Option.bind_eq_some_iff.mp h
    cases he
    exact hw _ hu

/-- A node and the members of a table in braces call each other, so they share the induction on
the budget. -/
theorem isFilled_of_node_members (budget : Nat) :
    (∀ t n rest, node budget t = some (n, rest) → n.IsFilled) ∧
      ∀ es t es' rest, es.IsFilled → members budget es t = some (es', rest) → es'.IsFilled := by
  induction budget with
  | zero => exact ⟨by simp [node], by simp [members]⟩
  | succ budget ih =>
    constructor
    · intro t n rest h
      rw [node.eq_def] at h
      simp only at h
      split at h
      · obtain ⟨r, -, h⟩ := Option.bind_eq_some_iff.mp h
        obtain ⟨⟨vs, r'⟩, -, h⟩ := Option.bind_eq_some_iff.mp h
        cases h
        exact .value nofun nofun
      · split at h
        · cases h
          exact .table (by simp)
        · obtain ⟨⟨es, r⟩, hm, h⟩ := Option.bind_eq_some_iff.mp h
          cases h
          exact .table (ih.2 _ _ _ _ .nil hm)
      · split_ifs at h
        · obtain ⟨r, -, he⟩ := Option.map_eq_some_iff.mp h
          cases he
          exact .value nofun nofun
        · obtain ⟨⟨v, r⟩, hw, he⟩ := Option.map_eq_some_iff.mp h
          cases he
          exact isFilled_of_word hw
    · intro es t es' rest hes h
      rw [members.eq_def] at h
      simp only at h
      obtain ⟨⟨path, r⟩, -, h⟩ := Option.bind_eq_some_iff.mp h
      simp only at h
      split at h
      · obtain ⟨⟨n, r'⟩, hn, h⟩ := Option.bind_eq_some_iff.mp h
        obtain ⟨fs, hfs, h⟩ := Option.bind_eq_some_iff.mp h
        have hf := hes.add (ih.1 _ _ _ hn) hfs
        simp only at h
        split at h
        · exact ih.2 _ _ _ _ hf h
        · cases h
          exact hf
        · exact nomatch h
      · exact nomatch h

theorem isFilled_of_node {budget : Nat} {t rest : Text} {n : Node}
    (h : node budget t = some (n, rest)) : n.IsFilled :=
  (isFilled_of_node_members budget).1 t n rest h

theorem isFilled_of_open? {d e : Draft} {path : List Text}
    {declare : Text → Entries → Option Entries} (h : d.entries.IsFilled)
    (hd : ∀ key (es es' : Entries), es.IsFilled → declare key es = some es' → es'.IsFilled)
    (ho : d.open? path declare = some e) : e.entries.IsFilled := by
  obtain ⟨last, -, ho⟩ := Option.bind_eq_some_iff.mp ho
  obtain ⟨es, hes, ho⟩ := Option.bind_eq_some_iff.mp ho
  cases ho
  exact h.within (hd last) hes

theorem isFilled_of_header {d e : Draft} {t rest : Text} (h : d.entries.IsFilled)
    (hh : header d t = some (e, rest)) : e.entries.IsFilled := by
  rw [header.eq_def] at hh
  split at hh
  · obtain ⟨⟨path, r⟩, -, hh⟩ := Option.bind_eq_some_iff.mp hh
    simp only at hh
    split at hh
    · obtain ⟨e', he, hh⟩ := Option.bind_eq_some_iff.mp hh
      cases hh
      exact isFilled_of_open? h (fun _ _ _ => Entries.IsFilled.declareNext) he
    · exact nomatch hh
  · obtain ⟨⟨path, r⟩, -, hh⟩ := Option.bind_eq_some_iff.mp hh
    simp only at hh
    split at hh
    · obtain ⟨e', he, hh⟩ := Option.bind_eq_some_iff.mp hh
      cases hh
      exact isFilled_of_open? h (fun _ _ _ => Entries.IsFilled.declare) he
    · exact nomatch hh

theorem isFilled_of_assignment {d e : Draft} {t rest : Text} (h : d.entries.IsFilled)
    (ha : assignment d t = some (e, rest)) : e.entries.IsFilled := by
  rw [assignment.eq_def] at ha
  obtain ⟨⟨path, r⟩, -, ha⟩ := Option.bind_eq_some_iff.mp ha
  simp only at ha
  split at ha
  · obtain ⟨⟨n, r'⟩, hn, ha⟩ := Option.bind_eq_some_iff.mp ha
    obtain ⟨es, hes, ha⟩ := Option.bind_eq_some_iff.mp ha
    cases ha
    exact h.within (fun _ _ hf hfs => hf.add (isFilled_of_node hn) hfs) hes
  · exact nomatch ha

theorem isFilled_of_statements {budget : Nat} {d e : Draft} {t : Text} (h : d.entries.IsFilled)
    (hs : statements budget d t = some e) : e.entries.IsFilled := by
  induction budget generalizing d t with
  | zero => exact nomatch hs
  | succ budget ih =>
    rw [statements] at hs
    simp only at hs
    split at hs
    case' h_3 => split_ifs at hs
    -- what follows a line is the same for all kinds of lines
    all_goals
      obtain ⟨⟨d', r⟩, hd, hs⟩ := Option.bind_eq_some_iff.mp hs
      have hd' : d'.entries.IsFilled := by
        first
          | exact isFilled_of_header h hd
          | exact isFilled_of_assignment h hd
          | cases hd
            exact h
      obtain ⟨r', -, hs⟩ := Option.bind_eq_some_iff.mp hs
      split at hs
      · cases hs
        exact hd'
      · exact ih hd' hs
      · exact nomatch hs

theorem isFilled_of_read {t : Text} {es : List (Value × Value)} (h : read t = some es) :
    (Value.map es).IsFilled := by
  obtain ⟨d, hd, rfl⟩ := Option.map_eq_some_iff.mp h
  have hf : (Node.table .declared d.entries).IsFilled := .table (isFilled_of_statements .nil hd)
  simpa [Node.toValue] using hf.toValue

end Toml

end LayeredConfig
