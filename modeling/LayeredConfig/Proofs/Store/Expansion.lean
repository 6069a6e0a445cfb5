import LayeredConfig.Proofs.Store.Contents
import LayeredConfig.Proofs.Store.References
import LayeredConfig.Proofs.Text.Fields
import LayeredConfig.Proofs.Value.Simple

/-! Expansion with no limit. A text is read from left to right, and each reference gives way to
what it stands for: the text of a variable as it is, the value of a key expanded in turn. The
limit on the depth makes no difference to a text of at most that height. -/

namespace LayeredConfig

namespace Piece

def IsName (name : Text) : Prop := name ≠ [] ∧ .scalar '}' ∉ name

instance (name : Text) : Decidable (IsName name) := inferInstanceAs (Decidable (_ ∧ _))

/-- Whether a text begins with a reference. -/
def Leads (t : Text) : Prop := ∃ name after, IsName name ∧ t = (reference name).written ++ after

variable {t name after : Text}

theorem leading?_written (h : IsName name) :
    leading? ((reference name).written ++ after) = some (name, after) := by
  obtain ⟨hne, hc⟩ := h
  cases name with
  | nil => exact absurd rfl hne
  | cons c name =>
    rw [List.mem_cons, not_or] at hc
    have hp : ∀ d ∈ name, (!isClosing d) = true := by
      intro d hd
      have hne : d ≠ .scalar '}' := fun he => hc.2 (he ▸ hd)
      simp [isClosing, hne]
    have ho : isClosing c = false := by simpa [isClosing] using Ne.symm hc.1
    have hcl : (!isClosing (.scalar '}')) = false := rfl
    simp [written, leading?, ho, hcl, List.dropWhile_append_of_pos hp,
      List.takeWhile_append_of_pos hp]

theorem isName_of_leading? (h : leading? t = some (name, after)) : IsName name := by
  unfold leading? at h
  split at h
  · rename_i c rest
    split at h
    · exact nomatch h
    · rename_i ho
      split at h
      · exact nomatch h
      · cases h
        refine ⟨List.cons_ne_nil _ _, ?_⟩
        intro hm
        rcases List.mem_cons.mp hm with rfl | hm
        · exact ho rfl
        · have hp := List.all_eq_true.mp List.all_takeWhile _ hm
          exact absurd hp (by decide)
  · exact nomatch h

theorem leading?_eq_none (h : ¬ Leads t) : leading? t = none := by
  cases hl : leading? t with
  | none => rfl
  | some r => exact absurd ⟨r.1, r.2, isName_of_leading? hl, eq_of_leading? hl⟩ h

theorem not_leads_cons {c : CodePoint} (h : c ≠ .scalar '$') : ¬ Leads (c :: t) := by
  rintro ⟨name, after, -, he⟩
  exact h (List.cons.inj he).1

theorem ofText_written (h : IsName name) :
    ofText ((reference name).written ++ after) = reference name :: ofText after :=
  ofText_of_leading? (leading?_written h)

theorem ofText_reference (h : IsName name) :
    ofText (reference name).written = [reference name] := by
  rw [← List.append_nil (reference name).written, ofText_written h, ofText_nil]

theorem ofText_cons {c : CodePoint} (h : ¬ Leads (c :: t)) :
    ofText (c :: t) = character c :: ofText t := by
  rw [ofText.eq_2, leading?_eq_none h]

end Piece

open Piece

namespace Store

variable {s : Store} {env : Environment} {t u v name : Text}

/-- Whether a name asks for a variable that is set, to this text. -/
def IsVariable (env : Environment) (name x : Text) : Prop :=
  ∃ named, name = environmentMark ++ named ∧ env.get? named = .ok (some x)

/-- Whether a name asks for a key that has a value. -/
def IsHeld (s : Store) (name : Text) : Prop :=
  (¬ environmentMark <+: name) ∧ s.value name ≠ .null

def Resolves (s : Store) (env : Environment) (name : Text) : Prop :=
  (∃ x, IsVariable env name x) ∨ s.IsHeld name

/-- The second text is what the first one stands for. -/
inductive Expansion (s : Store) (env : Environment) : Text → Text → Prop where
  | nil : Expansion s env [] []
  | character {c : CodePoint} {rest u : Text} (hl : ¬ Leads (c :: rest))
      (h : Expansion s env rest u) : Expansion s env (c :: rest) (c :: u)
  | environment {name after x u : Text} (hn : IsName name) (hx : IsVariable env name x)
      (h : Expansion s env after u) :
      Expansion s env ((reference name).written ++ after) (x ++ u)
  | key {name after x u : Text} (hn : IsName name) (hk : s.IsHeld name)
      (hx : Expansion s env (s.value name).rendered x) (h : Expansion s env after u) :
      Expansion s env ((reference name).written ++ after) (x ++ u)
  | unresolved {name after u : Text} (hn : IsName name) (hr : ¬ s.Resolves env name)
      (h : Expansion s env after u) :
      Expansion s env ((reference name).written ++ after) ((reference name).written ++ u)

/-- How deep the references of a text go: each that resolves is one higher than what stands in
for it, where the text of a variable has no height. -/
inductive HasHeight (s : Store) (env : Environment) : Text → Nat → Prop where
  | nil : HasHeight s env [] 0
  | character {c : CodePoint} {rest : Text} {n : Nat} (hl : ¬ Leads (c :: rest))
      (h : HasHeight s env rest n) : HasHeight s env (c :: rest) n
  | environment {name after x : Text} {n : Nat} (hn : IsName name) (hx : IsVariable env name x)
      (h : HasHeight s env after n) :
      HasHeight s env ((reference name).written ++ after) (max 1 n)
  | key {name after : Text} {m n : Nat} (hn : IsName name) (hk : s.IsHeld name)
      (hm : HasHeight s env (s.value name).rendered m) (h : HasHeight s env after n) :
      HasHeight s env ((reference name).written ++ after) (max (m + 1) n)
  | unresolved {name after : Text} {n : Nat} (hn : IsName name) (hr : ¬ s.Resolves env name)
      (h : HasHeight s env after n) : HasHeight s env ((reference name).written ++ after) n

/-! ### One reference at a time -/

theorem dropPrefix?_of_isHeld (h : s.IsHeld name) :
    Text.dropPrefix? environmentMark name = none := Text.dropPrefix?_eq_none_iff.mpr h.1

variable {expand : Text → Except Fault Text}

theorem resolve_of_isVariable {x : Text} (h : IsVariable env name x) :
    s.resolve env expand (.reference name) = .ok x := by
  obtain ⟨named, hn, hx⟩ := h
  rw [resolve_of_environment (Text.dropPrefix?_eq_some_iff.mpr hn), hx]
  rfl

theorem resolve_of_isHeld (h : s.IsHeld name) (hv : (s.value name).IsSimple) :
    s.resolve env expand (.reference name) = expand (s.value name).rendered := by
  rw [resolve_of_ne_null (dropPrefix?_of_isHeld h) h.2, hv.settingText]
  rfl

theorem not_resolves_of_null (hm : ¬ environmentMark <+: name) (hv : s.value name = .null)
    (env : Environment) : ¬ s.Resolves env name := by
  rintro (⟨x, named, he, -⟩ | ⟨-, hh⟩)
  · exact hm ⟨named, he.symm⟩
  · exact hh hv

theorem resolve_of_not_resolves (h : ¬ s.Resolves env name)
    (he : ∀ named, name = environmentMark ++ named → named.IsEncodable) :
    s.resolve env expand (.reference name) = .ok (reference name).written := by
  rw [Resolves, not_or] at h
  cases hd : Text.dropPrefix? environmentMark name with
  | some named =>
    have hn := Text.dropPrefix?_eq_some_iff.mp hd
    obtain ⟨r, hr⟩ := Environment.exists_get?_iff.mpr (he named hn)
    cases r with
    | some x => exact absurd ⟨x, named, hn, hr⟩ h.1
    | none =>
      rw [resolve_of_environment hd, hr]
      rfl
  | none =>
    have hv : s.value name = .null := by
      by_contra hv
      exact h.2 ⟨Text.dropPrefix?_eq_none_iff.mp hd, hv⟩
    exact resolve_of_null hd hv

/-- Where nothing resolves, a text stays as it is, unless the environment cannot be asked for one
of its names. -/
theorem interpolate_of_not_resolves
    (h : ∀ name, .reference name ∈ ofText t → ¬ s.Resolves env name) :
    s.interpolate env t = .ok u ↔
      u = t ∧ ∀ named, .reference (environmentMark ++ named) ∈ ofText t → named.IsEncodable := by
  have ho (he : ∀ named, .reference (environmentMark ++ named) ∈ ofText t → named.IsEncodable) :
      s.interpolate env t = .ok t := by
    refine expand_eq_self fun name hn _ => resolve_of_not_resolves (h name hn) ?_
    rintro named rfl
    exact he named hn
  constructor
  · intro hu
    have hx : s.Expandable expansionDepth t := exists_expand_iff.mp ⟨u, hu⟩
    have he : ∀ named, .reference (environmentMark ++ named) ∈ ofText t → named.IsEncodable := by
      intro named hn
      have hr := hx _ hn
      rwa [Resolvable, Text.dropPrefix?_eq_some_iff.mpr rfl] at hr
    exact ⟨Except.ok.inj (hu.symm.trans (ho he)), he⟩
  · rintro ⟨rfl, he⟩
    exact ho he

theorem expand_cons {c : CodePoint} {depth : Nat} (hl : ¬ Leads (c :: t))
    (h : s.expand env depth t = .ok u) : s.expand env depth (c :: t) = .ok (c :: u) := by
  cases depth with
  | zero =>
    cases h
    rfl
  | succ depth =>
    obtain ⟨us, hus, he⟩ := Except.bind_eq_ok_iff.mp h
    cases he
    rw [Store.expand, ofText_cons hl]
    exact Except.bind_eq_ok_iff.mpr
      ⟨_, mapM_cons_eq_ok_iff.mpr ⟨_, _, resolve_character .., hus, rfl⟩, rfl⟩

/-- Text in which no reference can begin stays in front of what follows. -/
theorem expand_append_of_not_mem {before : Text} {depth : Nat} (hb : .scalar '$' ∉ before)
    (h : s.expand env depth t = .ok u) : s.expand env depth (before ++ t) = .ok (before ++ u) := by
  induction before with
  | nil => exact h
  | cons c before ih =>
    rw [List.mem_cons, not_or] at hb
    exact expand_cons (not_leads_cons (Ne.symm hb.1)) (ih hb.2)

theorem expand_written {after x : Text} {depth : Nat} (hn : IsName name)
    (hx : s.resolve env (s.expand env depth) (.reference name) = .ok x)
    (h : s.expand env (depth + 1) after = .ok u) :
    s.expand env (depth + 1) ((reference name).written ++ after) = .ok (x ++ u) := by
  obtain ⟨us, hus, he⟩ := Except.bind_eq_ok_iff.mp h
  cases he
  rw [Store.expand, ofText_written hn]
  exact Except.bind_eq_ok_iff.mpr ⟨_, mapM_cons_eq_ok_iff.mpr ⟨_, _, hx, hus, rfl⟩, rfl⟩

/-! ### Depths at which the limit is not felt -/

/-- From this depth on the store expands the first text to the second. -/
def Settles (s : Store) (env : Environment) (n : Nat) (t u : Text) : Prop :=
  ∀ depth, n ≤ depth → s.expand env depth t = .ok u

namespace Settles

variable {m n : Nat} {after x : Text}

theorem of_isLiteral (h : t.IsLiteral) : s.Settles env 0 t t :=
  fun _ _ => expand_eq_self fun name hn => absurd hn (h name)

theorem nil : s.Settles env 0 [] [] := of_isLiteral (by simp [Text.IsLiteral])

theorem character {c : CodePoint} (hl : ¬ Leads (c :: t)) (h : s.Settles env n t u) :
    s.Settles env n (c :: t) (c :: u) :=
  fun depth hd => expand_cons hl (h depth hd)

theorem environment (hn : IsName name) (hx : IsVariable env name x)
    (h : s.Settles env n after u) :
    s.Settles env (max 1 n) ((reference name).written ++ after) (x ++ u) := by
  intro depth hd
  cases depth with
  | zero => omega
  | succ depth => exact expand_written hn (resolve_of_isVariable hx) (h _ (by omega))

/-- The value of a key is expanded one level below the reference to it. -/
theorem key (hn : IsName name) (hk : s.IsHeld name) (hv : (s.value name).IsSimple)
    (hx : s.Settles env m (s.value name).rendered x) (h : s.Settles env n after u) :
    s.Settles env (max (m + 1) n) ((reference name).written ++ after) (x ++ u) := by
  intro depth hd
  cases depth with
  | zero => omega
  | succ depth =>
    have hr : s.resolve env (s.expand env depth) (.reference name) = .ok x :=
      (resolve_of_isHeld hk hv).trans (hx depth (by omega))
    exact expand_written hn hr (h _ (by omega))

/-- A reference that does not resolve stays at every depth, also at the last. -/
theorem unresolved (hn : IsName name) (hr : ¬ s.Resolves env name)
    (he : ∀ named, name = environmentMark ++ named → named.IsEncodable)
    (h : s.Settles env n after u) :
    s.Settles env n ((reference name).written ++ after) ((reference name).written ++ u) := by
  intro depth hd
  have hu := h depth hd
  cases depth with
  | zero =>
    cases hu
    rfl
  | succ depth => exact expand_written hn (resolve_of_not_resolves hr he) hu

end Settles

/-- A text that is one reference, to a key with a text that holds none. -/
theorem interpolate_reference (hn : IsName name) (hm : ¬ environmentMark <+: name)
    (hv : s.value name = .text u) (hu : u.IsLiteral) :
    s.interpolate env (reference name).written = .ok u := by
  have hx : s.Settles env 0 (s.value name).rendered u := by
    rw [hv]
    exact .of_isLiteral hu
  have hs := Settles.key hn ⟨hm, by rw [hv]; exact nofun⟩ (by rw [hv]; exact .text u) hx .nil
  rw [List.append_nil, List.append_nil] at hs
  exact hs expansionDepth (by decide)

/-- A text that is one reference, to a variable that is set. -/
theorem interpolate_variable {x : Text} (hn : IsName name) (hx : IsVariable env name x) :
    s.interpolate env (reference name).written = .ok x := by
  have hs := Settles.environment (s := s) hn hx .nil
  rw [List.append_nil, List.append_nil] at hs
  exact hs expansionDepth (by decide)

/-! ### The whole expansion -/

/-- All values are simple and hold no surrogate. -/
structure IsPlain (s : Store) : Prop where
  simple : ∀ key, s.value key = .null ∨ (s.value key).IsSimple
  scalar : ∀ key t, s.value key = .text t → t.isScalar = true

theorem IsPlain.of_isHeld (hs : s.IsPlain) (h : s.IsHeld name) : (s.value name).IsSimple :=
  (hs.simple name).resolve_left h.2

theorem IsPlain.isEncodable (hs : s.IsPlain) (key : Text) :
    (s.value key).rendered.IsEncodable := by
  cases hv : s.value key with
  | text t => exact Text.isEncodable_of_isScalar (hs.scalar key t hv)
  | bool b => cases b <;> exact Text.isEncodable_of_isScalar (Text.isScalar_ofString _)
  | int n =>
    -- decimal digits and a sign are characters
    exact Numeral.forall_mem_ofInt (p := fun c => c.systemBytes?.isSome = true) rfl fun _ _ => rfl
  | _ => exact nofun

theorem isEncodable_of_written {after : Text}
    (h : ((reference name).written ++ after).IsEncodable) :
    (∀ named, name = environmentMark ++ named → named.IsEncodable) ∧ after.IsEncodable := by
  rw [Text.IsEncodable, List.forall_mem_append] at h
  refine ⟨?_, h.2⟩
  rintro named rfl c hc
  exact h.1 c (by simp [Piece.written, hc])

/-- A text with a height stands for a text, and the store finds it that deep. -/
theorem HasHeight.exists_settles {n : Nat} (hs : s.IsPlain) (h : s.HasHeight env t n)
    (ht : t.IsEncodable) : ∃ u, s.Expansion env t u ∧ s.Settles env n t u := by
  induction h with
  | nil => exact ⟨[], .nil, .nil⟩
  | character hl _ ih =>
    obtain ⟨u, hu, hd⟩ := ih (List.forall_mem_cons.mp ht).2
    exact ⟨_, .character hl hu, .character hl hd⟩
  | environment hn hx _ ih =>
    obtain ⟨u, hu, hd⟩ := ih (isEncodable_of_written ht).2
    exact ⟨_, .environment hn hx hu, .environment hn hx hd⟩
  | key hn hk _ _ ihv ih =>
    obtain ⟨x, hx, hdx⟩ := ihv (hs.isEncodable _)
    obtain ⟨u, hu, hd⟩ := ih (isEncodable_of_written ht).2
    exact ⟨_, .key hn hk hx hu, .key hn hk (hs.of_isHeld hk) hdx hd⟩
  | unresolved hn hr _ ih =>
    obtain ⟨he, ha⟩ := isEncodable_of_written ht
    obtain ⟨u, hu, hd⟩ := ih ha
    exact ⟨_, .unresolved hn hr hu, .unresolved hn hr he hd⟩

/-- Whatever a text stands for, the store finds it once it goes deep enough. -/
theorem Expansion.exists_settles (hs : s.IsPlain) (h : s.Expansion env t u)
    (ht : t.IsEncodable) : ∃ n, s.Settles env n t u := by
  induction h with
  | nil => exact ⟨0, .nil⟩
  | character hl _ ih =>
    obtain ⟨n, hd⟩ := ih (List.forall_mem_cons.mp ht).2
    exact ⟨n, .character hl hd⟩
  | environment hn hx _ ih =>
    obtain ⟨n, hd⟩ := ih (isEncodable_of_written ht).2
    exact ⟨_, .environment hn hx hd⟩
  | key hn hk _ _ ihv ih =>
    obtain ⟨m, hdx⟩ := ihv (hs.isEncodable _)
    obtain ⟨n, hd⟩ := ih (isEncodable_of_written ht).2
    exact ⟨_, .key hn hk (hs.of_isHeld hk) hdx hd⟩
  | unresolved hn hr _ ih =>
    obtain ⟨he, ha⟩ := isEncodable_of_written ht
    obtain ⟨n, hd⟩ := ih ha
    exact ⟨n, .unresolved hn hr he hd⟩

theorem Expansion.unique (hs : s.IsPlain) (ht : t.IsEncodable) (hu : s.Expansion env t u)
    (hv : s.Expansion env t v) : u = v := by
  obtain ⟨m, hm⟩ := hu.exists_settles hs ht
  obtain ⟨n, hn⟩ := hv.exists_settles hs ht
  exact Except.ok.inj ((hm _ (Nat.le_max_left m n)).symm.trans (hn _ (Nat.le_max_right m n)))

/-- A text that is no higher than the limit is replaced by the one text it stands for. -/
theorem interpolate_of_hasHeight {n : Nat} (hs : s.IsPlain) (ht : t.isScalar = true)
    (h : s.HasHeight env t n) (hn : n ≤ expansionDepth) :
    ∃ u, s.interpolate env t = .ok u ∧ ∀ v, s.Expansion env t v ↔ v = u := by
  have he := Text.isEncodable_of_isScalar ht
  obtain ⟨u, hu, hd⟩ := h.exists_settles hs he
  refine ⟨u, hd _ hn, fun v => ⟨fun hv => hv.unique hs he hu, ?_⟩⟩
  rintro rfl
  exact hu

/-- The names of a chain: keys `k`, `kk` and so on, and a variable after the last of them. -/
def link (i : Nat) : Text := if i < 15 then List.replicate (i + 1) (.scalar 'k') else "env:HOME"

/-- A store in which each key refers to the next name. -/
def chain : Store :=
  { empty true with
    written := .ofList ((List.range 15).map fun i =>
      (link i, .text (reference (link (i + 1))).written)) }

def home : Environment := [([72, 79, 77, 69], "/root")]

theorem value_chain : ∀ i < 15, chain.value (link i) =
    .text (reference (link (i + 1))).written := by
  intro i hi
  interval_cases i <;> rfl

theorem isPlain_chain : chain.IsPlain := by
  have hs : ∀ i < 15, (reference (link (i + 1))).written.isScalar = true := by decide
  have hv : ∀ key, chain.value key ≠ .null →
      ∃ t, chain.value key = .text t ∧ t.isScalar = true := by
    intro key hv
    obtain ⟨l, hl, hg⟩ := exists_of_findIn_eq_some (find?_of_value rfl hv)
    rw [List.mem_singleton.mp hl] at hg
    have hm : _ ∈ (OrderedMap.ofList _).entries := OrderedMap.mem_of_get? hg
    rw [OrderedMap.ofList_entries (by decide)] at hm
    obtain ⟨i, hi, he⟩ := List.mem_map.mp hm
    exact ⟨_, (Prod.mk.inj he).2.symm, hs i (List.mem_range.mp hi)⟩
  constructor
  · intro key
    by_cases hn : chain.value key = .null
    · exact .inl hn
    · obtain ⟨t, ht, -⟩ := hv key hn
      exact .inr (ht ▸ .text t)
  · intro key t ht
    obtain ⟨u, hu, hc⟩ := hv key (by rw [ht]; exact nofun)
    cases ht.symm.trans hu
    exact hc

theorem hasHeight_link {i m : Nat} (h : i + m = 15) :
    chain.HasHeight home (reference (link i)).written (m + 1) := by
  have hn : ∀ i ≤ 15, IsName (link i) := by decide
  have hk : ∀ i < 15, ¬ environmentMark <+: link i := by decide
  induction m generalizing i with
  | zero =>
    obtain rfl : i = 15 := h
    have hx : IsVariable home (link 15) "/root" := ⟨"HOME", rfl, rfl⟩
    have hh := HasHeight.environment (s := chain) (hn 15 le_rfl) hx .nil
    rwa [List.append_nil] at hh
  | succ m ih =>
    have hv := value_chain i (by omega)
    have hm : chain.HasHeight home (chain.value (link i)).rendered (m + 1) := by
      rw [hv]
      exact ih (by omega)
    have hd : chain.IsHeld (link i) := ⟨hk i (by omega), by rw [hv]; exact nofun⟩
    have hh := HasHeight.key (hn i (by omega)) hd hm .nil
    rwa [List.append_nil, Nat.max_eq_left (Nat.zero_le _)] at hh

/-- The limit is reached: the whole chain is as high as it allows. -/
theorem interpolate_chain :
    (chain.IsPlain ∧ (reference (link 0)).written.isScalar = true ∧
      chain.HasHeight home (reference (link 0)).written 16 ∧ 16 ≤ expansionDepth) ∧
    ∃ u, chain.interpolate home (reference (link 0)).written = .ok u ∧
      ∀ v, chain.Expansion home (reference (link 0)).written v ↔ v = u :=
  ⟨⟨isPlain_chain, by decide, hasHeight_link rfl, le_rfl⟩,
    interpolate_of_hasHeight isPlain_chain (by decide) (hasHeight_link rfl) le_rfl⟩

end Store

end LayeredConfig
