import LayeredConfig.Proofs.Configuration.Validation

/-! The address of an application in the coordination tree. A name is judged character by
character, and since no name has a slash, the last slash of an address parts the servers from the
name. -/

namespace LayeredConfig

namespace ApplicationName

/-- What neither a node of the tree nor a segment of a path may have. -/
def IsRefused (c : CodePoint) : Prop :=
  c = .scalar '/' ∨ c = .scalar '.' ∨ c = .scalar ':' ∨ c.value ≤ 0x1F ∨
    (0x7F ≤ c.value ∧ c.value ≤ 0x9F) ∨ (0xD800 ≤ c.value ∧ c.value ≤ 0xF8FF) ∨
    (0xFFF0 ≤ c.value ∧ c.value ≤ 0xFFFF) ∨ 0xFFFF < c.value

/-- A text is a name as it stands, or is refused by its first character that cannot stand in
one. -/
structure IsJudged (name : Text) : Prop where
  accepted (t : Text) : check (.text name) = .ok t ↔
    t = name ∧ name ≠ [] ∧ ∀ c ∈ name, ¬ IsRefused c
  refused (hr : ∃ c ∈ name, IsRefused c) : ∃ before c after fault,
    name = before ++ c :: after ∧ (∀ d ∈ before, ¬ IsRefused d) ∧ IsRefused c ∧
      check (.text name) = .error fault ∧ fault.category? = some .configuration ∧
      fault.details =
        [(.text "character", .text [c]), (.text "index", .int before.length)]

variable {c : CodePoint} {name : Text} {flaw : NameFlaw} {index : Nat}

theorem isPathSeparator_iff : isPathSeparator c = true ↔
    c = .scalar '/' ∨ c = .scalar '.' ∨ c = .scalar ':' := by
  simp [isPathSeparator, or_assoc]

theorem null_or_isInvalid_iff : c.value = 0 ∨ isInvalid c = true ↔ c.value ≤ 0x1F ∨
    (0x7F ≤ c.value ∧ c.value ≤ 0x9F) ∨ (0xD800 ≤ c.value ∧ c.value ≤ 0xF8FF) ∨
    (0xFFF0 ≤ c.value ∧ c.value ≤ 0xFFFF) ∨ 0xFFFF < c.value := by
  simp only [isInvalid, Bool.or_eq_true, Bool.and_eq_true, decide_eq_true_eq]
  omega

theorem flaw?_eq_none_iff : flaw? c = none ↔ ¬ IsRefused c := by
  have hr : IsRefused c ↔ c.value = 0 ∨ isPathSeparator c = true ∨ isInvalid c = true := by
    rw [or_left_comm, isPathSeparator_iff, null_or_isInvalid_iff]
    simp only [IsRefused, or_assoc]
  rw [hr, flaw?]
  split_ifs <;> simp [*]

theorem character_of_flaw? (h : flaw? c = some flaw) : flaw.character = c := by
  unfold flaw? at h
  split_ifs at h with hc
  · cases h
    exact CodePoint.value_injective hc.symm
  · cases h
    rfl
  · cases h
    rfl

/-- The scan stops at the first character with a flaw and counts those before it. -/
theorem exists_of_firstFlaw? {i : Nat} (h : firstFlaw? index name = some (flaw, i)) :
    ∃ before c after, name = before ++ c :: after ∧ i = index + before.length ∧
      (∀ d ∈ before, flaw? d = none) ∧ flaw? c = some flaw := by
  induction name generalizing index with
  | nil => exact nomatch h
  | cons c name ih =>
    rw [firstFlaw?] at h
    cases hc : flaw? c with
    | some found =>
      rw [hc] at h
      obtain ⟨rfl, rfl⟩ := Prod.mk.inj (Option.some.inj h)
      exact ⟨[], c, name, rfl, rfl, List.forall_mem_nil _, hc⟩
    | none =>
      rw [hc] at h
      obtain ⟨before, d, after, rfl, hi, hb, hd⟩ := ih h
      have hn : i = index + (c :: before).length := by
        rw [hi, List.length_cons]
        omega
      exact ⟨c :: before, d, after, rfl, hn, List.forall_mem_cons.mpr ⟨hc, hb⟩, hd⟩

theorem isJudged (name : Text) : IsJudged name where
  accepted t := by
    rw [check_eq_ok_iff, Value.text.injEq]
    simp only [flaw?_eq_none_iff]
    constructor
    · rintro ⟨rfl, h⟩
      exact ⟨rfl, h⟩
    · rintro ⟨rfl, h⟩
      exact ⟨rfl, h⟩
  refused hr := by
    obtain ⟨x, hx, hr⟩ := hr
    cases hf : firstFlaw? 0 name with
    | none => exact absurd hr (flaw?_eq_none_iff.mp (firstFlaw?_eq_none_iff.mp hf x hx))
    | some found =>
      obtain ⟨flaw, i⟩ := found
      obtain ⟨before, c, after, rfl, hi, hb, hc⟩ := exists_of_firstFlaw? hf
      rw [Nat.zero_add] at hi
      have hr : IsRefused c := by
        rw [← Classical.not_not (a := IsRefused c), ← flaw?_eq_none_iff, hc]
        exact nofun
      have hk : check (.text (before ++ c :: after)) =
          .error (.nameRefused (before ++ c :: after) flaw i) := by
        rw [check, checkText, if_neg (by simp), hf]
      refine ⟨before, c, after, _, rfl, fun d hd => flaw?_eq_none_iff.mp (hb d hd), hr, hk, rfl, ?_⟩
      rw [Fault.details, character_of_flaw? hc, hi]

end ApplicationName

/-! ### Two parts joined by a character -/

namespace Text

variable {sep : CodePoint} {a b c d between : Text}

theorem eq_nil_of_cons_eq (hb : sep ∉ b) (h : sep :: b = between ++ sep :: d) : between = [] := by
  cases between with
  | nil => rfl
  | cons x between =>
    have hm : sep ∈ between ++ sep :: d := List.mem_append_right between List.mem_cons_self
    exact absurd ((List.cons.inj h).2 ▸ hm) hb

/-- The first part may have the character, the second may not. -/
theorem append_cons_inj (hb : sep ∉ b) (hd : sep ∉ d) (h : a ++ sep :: b = c ++ sep :: d) :
    a = c ∧ b = d := by
  rcases List.append_eq_append_iff.mp h with ⟨between, rfl, hs⟩ | ⟨between, rfl, hs⟩
  · obtain rfl := eq_nil_of_cons_eq hb hs
    exact ⟨(List.append_nil a).symm, (List.cons.inj hs).2⟩
  · obtain rfl := eq_nil_of_cons_eq hd hs
    exact ⟨List.append_nil c, (List.cons.inj hs).2.symm⟩

end Text

namespace Store

variable {s : Store} {env : Environment}

theorem exists_text_of_get {x : Setting} {v : Value} (h : s.get env x = .ok v)
    (hk : x.kind.isText = true) : ∃ t, v = .text t :=
  (get_eq_ok_iff.mp h).2.exists_text hk

theorem connectString_eq_ok_iff {z : Text} : s.connectString env = .ok z ↔
    ∃ servers name, s.get env .instanceZookeepers = .ok (.text servers) ∧
      s.get env .applicationName = .ok (.text name) ∧ z = servers ++ .scalar '/' :: name := by
  constructor
  · intro h
    obtain ⟨v, hv, h⟩ := Except.bind_eq_ok_iff.mp h
    obtain ⟨w, hw, h⟩ := Except.bind_eq_ok_iff.mp h
    obtain ⟨servers, rfl⟩ := exists_text_of_get hv rfl
    obtain ⟨name, rfl⟩ := exists_text_of_get hw rfl
    exact ⟨servers, name, hv, hw, (Except.ok.inj h).symm⟩
  · rintro ⟨servers, name, hs, hn, rfl⟩
    rw [connectString, hs, hn]
    rfl

theorem connectString_of_isLiteral {servers name : Text}
    (hs : s.raw Setting.instanceZookeepers.key (Setting.default? .instanceZookeepers) =
      .ok (.text servers))
    (hn : s.raw Setting.applicationName.key none = .ok (.text name)) (hls : servers.IsLiteral)
    (hln : name.IsLiteral) (has : Kind.nonEmptyText.Admits (.text servers))
    (han : Kind.applicationName.Admits (.text name)) (env : Environment) :
    s.connectString env = .ok (servers ++ .scalar '/' :: name) :=
  connectString_eq_ok_iff.mpr ⟨servers, name,
    get_of_isLiteral (x := .instanceZookeepers) hs rfl hls has env,
    get_of_isLiteral (x := .applicationName) hn rfl hln han env, rfl⟩

theorem slash_not_mem_of_get {name : Text} (h : s.get env .applicationName = .ok (.text name)) :
    .scalar '/' ∉ name := by
  intro hm
  obtain ⟨t, ht, -, hf⟩ := (get_eq_ok_iff.mp h).2
  obtain rfl := Value.text.inj ht
  exact ApplicationName.flaw?_eq_none_iff.mp (hf _ hm) (.inl rfl)

/-- Names are judged by their characters, and so an address tells its servers and its name,
whatever store and environment it comes from. -/
theorem isJudged_and_connectString_inj : (∀ name, ApplicationName.IsJudged name) ∧
    ∀ (s s' : Store) (env env' : Environment) (z : Text), s.connectString env = .ok z →
      s'.connectString env' = .ok z → ∃ servers name,
        s.get env .instanceZookeepers = .ok (.text servers) ∧
        s'.get env' .instanceZookeepers = .ok (.text servers) ∧
        s.get env .applicationName = .ok (.text name) ∧
        s'.get env' .applicationName = .ok (.text name) := by
  refine ⟨ApplicationName.isJudged, fun s s' env env' z h h' => ?_⟩
  obtain ⟨servers, name, hs, hn, rfl⟩ := connectString_eq_ok_iff.mp h
  obtain ⟨servers', name', hs', hn', he⟩ := connectString_eq_ok_iff.mp h'
  have hm := slash_not_mem_of_get hn
  have hm' := slash_not_mem_of_get hn'
  obtain ⟨rfl, rfl⟩ := Text.append_cons_inj hm hm' he
  exact ⟨servers, name, hs, hs', hn, hn'⟩

/-- The servers are left to their default. -/
def served : Store := ⟨.ofList [(Setting.applicationName.key, .text "web")], [], true⟩

def layered : Store :=
  ⟨.ofList [(Setting.instanceZookeepers.key, .text "localhost/fluo")],
    [.ofList [(Setting.applicationName.key, .text "web")]], true⟩

theorem served_layered_address : served.connectString [] = .ok "localhost/fluo/web" ∧
    layered.connectString [] = .ok "localhost/fluo/web" ∧
      ∃ servers name, served.get [] .instanceZookeepers = .ok (.text servers) ∧
        layered.get [] .instanceZookeepers = .ok (.text servers) ∧
        served.get [] .applicationName = .ok (.text name) ∧
        layered.get [] .applicationName = .ok (.text name) := by
  have hls : Text.IsLiteral "localhost/fluo" := Text.isLiteral_of_not_mem (by decide)
  have hln : Text.IsLiteral "web" := Text.isLiteral_of_not_mem (by decide)
  have has : Kind.nonEmptyText.Admits (.text "localhost/fluo") := ⟨_, rfl, by decide⟩
  have han : Kind.applicationName.Admits (.text "web") := ⟨_, rfl, by decide⟩
  have h : served.connectString [] = .ok "localhost/fluo/web" :=
    connectString_of_isLiteral rfl rfl hls hln has han []
  have h' : layered.connectString [] = .ok "localhost/fluo/web" :=
    connectString_of_isLiteral rfl rfl hls hln has han []
  exact ⟨h, h', isJudged_and_connectString_inj.2 served layered [] [] _ h h'⟩

end Store

end LayeredConfig
