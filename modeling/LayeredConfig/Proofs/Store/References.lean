import LayeredConfig.Proofs.Traversal
import LayeredConfig.Store.References

/-! What a reference stands for, by its name and by what the store holds under it. -/

namespace LayeredConfig

namespace Piece

variable {t name after : Text}

theorem eq_of_leading? (h : leading? t = some (name, after)) :
    t = (reference name).written ++ after := by
  unfold leading? at h
  split at h
  · rename_i c rest
    split at h
    · exact nomatch h
    · split at h
      · exact nomatch h
      · rename_i d tail hd
        cases h
        -- what stops the name is a closing brace
        have hc : d = .scalar '}' := by
          have hh := List.head?_dropWhile_not (fun c => !isClosing c) rest
          rw [hd] at hh
          simpa [isClosing] using hh
        have hs := List.takeWhile_append_dropWhile (p := fun c => !isClosing c) (l := rest)
        rw [hd, hc] at hs
        simp only [written, List.cons_append, List.append_assoc, List.nil_append, hs]
  · exact nomatch h

theorem flatMap_written_ofText (t : Text) : (ofText t).flatMap written = t := by
  induction t using ofText.induct with
  | case1 => simp [ofText]
  | case2 c rest name after h ih =>
    rw [ofText.eq_2, h]
    simp only [List.flatMap_cons, ih]
    exact (eq_of_leading? h).symm
  | case3 c rest h ih =>
    rw [ofText.eq_2, h]
    simp only [List.flatMap_cons, ih]
    rfl

theorem written_subset (h : .reference name ∈ ofText t) : (reference name).written ⊆ t := by
  intro c hc
  rw [← flatMap_written_ofText t]
  exact List.mem_flatMap_of_mem h hc

theorem name_subset (h : .reference name ∈ ofText t) : name ⊆ t :=
  fun c hc => written_subset h (by simp [written, hc])

@[simp] theorem ofText_nil : ofText [] = [] := ofText.eq_1

theorem ofText_of_leading? (h : leading? t = some (name, after)) :
    ofText t = reference name :: ofText after := by
  cases t with
  | nil => exact nomatch h
  | cons c t => rw [ofText.eq_2, h]

end Piece

/-- Whether a text has no references, so that it reads as it is written. -/
def Text.IsLiteral (t : Text) : Prop := ∀ name, .reference name ∉ Piece.ofText t

theorem Text.IsLiteral.ofText_eq {t : Text} (h : t.IsLiteral) :
    Piece.ofText t = t.map .character := by
  have hp : ∀ ps : List Piece, (∀ name, .reference name ∉ ps) →
      ps = (ps.flatMap Piece.written).map .character := by
    intro ps hps
    induction ps with
    | nil => rfl
    | cons p ps ih =>
      cases p with
      | character c =>
        rw [List.flatMap_cons, Piece.written, List.singleton_append, List.map_cons,
          ← ih fun name hn => hps name (List.mem_cons_of_mem _ hn)]
      | reference name => exact absurd List.mem_cons_self (hps name)
  have hh := hp _ h
  rwa [Piece.flatMap_written_ofText] at hh

theorem Text.isLiteral_of_not_mem {t : Text} (h : .scalar '$' ∉ t) : t.IsLiteral :=
  fun _ hn => h (Piece.written_subset hn (by simp [Piece.written]))

namespace Store

variable {s : Store} {env : Environment} {expand : Text → Except Fault Text} {name : Text}

@[simp] theorem resolve_character (s : Store) (env : Environment)
    (expand : Text → Except Fault Text) (c : CodePoint) :
    s.resolve env expand (.character c) = .ok [c] := rfl

theorem resolve_of_environment {named : Text}
    (hn : Text.dropPrefix? environmentMark name = some named) :
    s.resolve env expand (.reference name) =
      (env.get? named).map fun t => t.getD (Piece.reference name).written := by
  simp only [resolve, hn]
  cases env.get? named <;> rfl

theorem resolve_of_null (hn : Text.dropPrefix? environmentMark name = none)
    (hv : s.value name = .null) :
    s.resolve env expand (.reference name) = .ok (Piece.reference name).written := by
  simp only [resolve, hn, hv]

theorem resolve_of_ne_null (hn : Text.dropPrefix? environmentMark name = none)
    (hv : s.value name ≠ .null) :
    s.resolve env expand (.reference name) = (s.value name).settingText >>= expand := by
  simp only [resolve, hn]

/-- A text is left as it is where none of its references can be resolved. -/
theorem expand_eq_self {t : Text} {depth : Nat}
    (h : ∀ name, .reference name ∈ Piece.ofText t → ∀ expand,
      s.resolve env expand (.reference name) = .ok (Piece.reference name).written) :
    s.expand env depth t = .ok t := by
  cases depth with
  | zero => rfl
  | succ depth =>
    have hm : (Piece.ofText t).mapM (s.resolve env (s.expand env depth)) =
        pure ((Piece.ofText t).map Piece.written) := by
      refine mapM_eq_pure_map fun p hp => ?_
      cases p with
      | character c => rfl
      | reference name => exact h name hp _
    rw [Store.expand, hm]
    exact congrArg Except.ok (Piece.flatMap_written_ofText t)

theorem interpolate_of_isLiteral {t : Text} (h : t.IsLiteral) : s.interpolate env t = .ok t :=
  expand_eq_self fun name hn => absurd hn (h name)

end Store

/-- A character outside of references stays. -/
theorem Store.mem_of_expand {s : Store} {env : Environment} {depth : Nat} {t u : Text}
    {c : CodePoint} (h : s.expand env depth t = .ok u) (hc : .character c ∈ Piece.ofText t) :
    c ∈ u := by
  cases depth with
  | zero =>
    cases h
    rw [← Piece.flatMap_written_ofText t]
    exact List.mem_flatMap_of_mem hc (List.mem_singleton.mpr rfl)
  | succ depth =>
    obtain ⟨us, hus, he⟩ := Except.bind_eq_ok_iff.mp h
    cases he
    exact List.mem_flatten_of_mem (mem_of_mem_mapM hus hc (resolve_character ..)) (by simp)

/-! ### Expansion that fails

The only values without a text are whole numbers of too many digits and what holds them, and the
environment cannot be asked for a name with a surrogate that stands for no byte. -/

theorem Value.settingText_eq_ok_iff {v : Value} {t : Text} :
    v.settingText = .ok t ↔ v.settingText? = some t := by
  rw [settingText]
  cases v.settingText? <;> simp

def Text.IsEncodable (t : Text) : Prop := ∀ c ∈ t, c.systemBytes?.isSome = true

theorem Text.isEncodable_of_isScalar {t : Text} (h : t.isScalar = true) : t.IsEncodable := by
  intro c hc
  cases c with
  | scalar c => rfl
  | surrogate n => exact nomatch List.all_eq_true.mp h _ hc

theorem Text.exists_systemBytesFrom_iff {t : Text} {place : Nat} :
    (∃ bytes, systemBytesFrom place t = .ok bytes) ↔ t.IsEncodable := by
  induction t generalizing place with
  | nil => simp [systemBytesFrom, IsEncodable]
  | cons c t ih =>
    rw [IsEncodable, List.forall_mem_cons, systemBytesFrom]
    cases hc : c.systemBytes? with
    | none => simp
    | some bytes =>
      rw [Except.exists_map_iff, ih, IsEncodable]
      simp

theorem Environment.exists_get?_iff {env : Environment} {name : Text} :
    (∃ r, env.get? name = .ok r) ↔ name.IsEncodable := by
  have hh : (∃ bytes, name.systemBytes = .ok bytes) ↔ name.IsEncodable :=
    Text.exists_systemBytesFrom_iff
  rw [← hh, get?]
  cases name.systemBytes <;> simp

namespace Store

variable {s : Store} {env : Environment}

def Resolvable (s : Store) (P : Text → Prop) (name : Text) : Prop :=
  match Text.dropPrefix? environmentMark name with
  | some named => named.IsEncodable
  | none => s.value name = .null ∨ ∃ t, (s.value name).settingText? = some t ∧ P t

/-- Whether all references of a text can be replaced, and those of what replaces them, so deep. -/
def Expandable (s : Store) : Nat → Text → Prop
  | 0, _ => True
  | depth + 1, t => ∀ name, .reference name ∈ Piece.ofText t →
      s.Resolvable (s.Expandable depth) name

theorem exists_resolve_iff {expand : Text → Except Fault Text} {name : Text} :
    (∃ u, s.resolve env expand (.reference name) = .ok u) ↔
      s.Resolvable (fun t => ∃ u, expand t = .ok u) name := by
  rw [Resolvable]
  cases hn : Text.dropPrefix? environmentMark name with
  | some named =>
    have hh : (∃ r, env.get? named = .ok r) ↔ named.IsEncodable := Environment.exists_get?_iff
    simp only [resolve_of_environment hn, ← hh]
    exact Except.exists_map_iff
  | none =>
    by_cases hv : s.value name = .null
    · simp [resolve_of_null hn hv, hv]
    · simp only [resolve_of_ne_null hn hv, Except.exists_bind_iff, Value.settingText_eq_ok_iff, hv,
        false_or]

theorem exists_expand_iff {depth : Nat} {t : Text} :
    (∃ u, s.expand env depth t = .ok u) ↔ s.Expandable depth t := by
  induction depth generalizing t with
  | zero => simp [Store.expand, Expandable]
  | succ depth ih =>
    -- a reference at this depth is replaced by a text that is expanded at the depth below
    have he : (fun t => ∃ u, s.expand env depth t = .ok u) = s.Expandable depth :=
      funext fun _ => propext ih
    have hm : (∃ u, s.expand env (depth + 1) t = .ok u) ↔
        ∃ us, (Piece.ofText t).mapM (s.resolve env (s.expand env depth)) = .ok us := by
      rw [Store.expand, Except.exists_bind_iff]
      exact ⟨fun ⟨us, h, _⟩ => ⟨us, h⟩, fun ⟨us, h⟩ => ⟨us, h, _, rfl⟩⟩
    rw [hm, exists_mapM_eq_ok_iff, Expandable, ← he]
    constructor
    · exact fun h name hn => exists_resolve_iff.mp (h _ hn)
    · intro h p hp
      cases p with
      | character c => exact ⟨_, resolve_character ..⟩
      | reference name => exact exists_resolve_iff.mpr (h name hp)

/-! ### What expansion depends on -/

/-- A key that is asked for where the references of a text are followed so deep. -/
inductive Reaches (s : Store) : Nat → Text → Text → Prop where
  | here {depth : Nat} {t key : Text} (hr : .reference key ∈ Piece.ofText t)
      (hk : Text.dropPrefix? environmentMark key = none) : Reaches s (depth + 1) t key
  | there {depth : Nat} {t u via key : Text} (hr : .reference via ∈ Piece.ofText t)
      (hk : Text.dropPrefix? environmentMark via = none)
      (hu : (s.value via).settingText? = some u) (h : Reaches s depth u key) :
      Reaches s (depth + 1) t key

theorem Reaches.exists_reference {depth : Nat} {t key : Text} (h : s.Reaches depth t key) :
    ∃ via, .reference via ∈ Piece.ofText t ∧ Text.dropPrefix? environmentMark via = none := by
  cases h with
  | here hr hk => exact ⟨_, hr, hk⟩
  | there hr hk => exact ⟨_, hr, hk⟩

/-- Whether two states say the same of a name: the variable of that name, or the value of that
key. -/
def SameFor (s' s : Store) (env' env : Environment) (name : Text) : Prop :=
  match Text.dropPrefix? environmentMark name with
  | some named => env'.get? named = env.get? named
  | none => s'.value name = s.value name

theorem resolve_congr {s' : Store} {env' : Environment} {expand' expand : Text → Except Fault Text}
    {name : Text} (h : SameFor s' s env' env name)
    (hx : Text.dropPrefix? environmentMark name = none →
      ∀ u, (s.value name).settingText? = some u → expand' u = expand u) :
    s'.resolve env' expand' (.reference name) = s.resolve env expand (.reference name) := by
  cases hk : Text.dropPrefix? environmentMark name with
  | some named =>
    have he : env'.get? named = env.get? named := by simpa only [SameFor, hk] using h
    rw [resolve_of_environment hk, resolve_of_environment hk, he]
  | none =>
    have hv : s'.value name = s.value name := by simpa only [SameFor, hk] using h
    by_cases hn : s.value name = .null
    · rw [resolve_of_null hk (hv.trans hn), resolve_of_null hk hn]
    · rw [resolve_of_ne_null hk (hv ▸ hn), resolve_of_ne_null hk hn, hv, Value.settingText]
      cases hu : (s.value name).settingText? with
      | none => rfl
      | some u => exact hx hk u hu

theorem expand_succ_congr {s' : Store} {env' : Environment} {depth : Nat} {t : Text}
    (h : ∀ name, .reference name ∈ Piece.ofText t →
      s'.resolve env' (s'.expand env' depth) (.reference name) =
        s.resolve env (s.expand env depth) (.reference name)) :
    s'.expand env' (depth + 1) t = s.expand env (depth + 1) t := by
  have hm : (Piece.ofText t).mapM (s'.resolve env' (s'.expand env' depth)) =
      (Piece.ofText t).mapM (s.resolve env (s.expand env depth)) := by
    refine mapM_congr fun p hp => ?_
    cases p with
    | character c => rfl
    | reference name => exact h name hp
  rw [Store.expand, Store.expand, hm]

/-- A text is expanded alike by stores with the same values under all keys that it leads to. -/
theorem expand_congr {s' : Store} {depth : Nat} {t : Text}
    (h : ∀ key, s.Reaches depth t key → s'.value key = s.value key) :
    s'.expand env depth t = s.expand env depth t := by
  induction depth generalizing t with
  | zero => rfl
  | succ depth ih =>
    refine expand_succ_congr fun name hp => ?_
    have hs : SameFor s' s env env name := by
      unfold SameFor
      split
      · rfl
      · rename_i hk
        exact h name (.here hp hk)
    exact resolve_congr hs fun hk u hu => ih fun key hr => h key (.there hp hk hu hr)

theorem interpolate_congr {s' : Store} {t : Text}
    (h : ∀ key, s.Reaches expansionDepth t key → s'.value key = s.value key) :
    s'.interpolate env t = s.interpolate env t := expand_congr h

end Store

end LayeredConfig
