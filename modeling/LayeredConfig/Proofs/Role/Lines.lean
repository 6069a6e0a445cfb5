import LayeredConfig.Proofs.Role.Validated
import LayeredConfig.Proofs.Role.Verdict

/-! What the checks of roles log, line by line. Over simple values without surrogates every key
reads as a text or not at all. A check then comes down to its lines: each tells of one key, and
the check passes exactly if there is none. -/

namespace LayeredConfig

theorem Value.IsSimple.isSome_plain? {v : Value} (h : v.IsSimple) : v.plain?.isSome = true := by
  cases h with
  | text t => rfl
  | bool b => rfl
  | int hn =>
    have hp := Numeral.ofInt?_eq_some hn
    simp [plain?, literal?, hp]

theorem Value.IsSimple.isScalar_rendered {v : Value} (h : v.IsSimple)
    (ht : ∀ t, v = .text t → t.isScalar = true) : v.rendered.isScalar = true := by
  cases h with
  | text t => exact ht t rfl
  | bool b => cases b <;> rfl
  | int hn =>
    have hd : ∀ d < 10, (!(CodePoint.digit d).isSurrogate) = true := by decide
    have hm : (!(CodePoint.scalar '-').isSurrogate) = true := rfl
    exact List.all_eq_true.mpr (Numeral.forall_mem_ofInt hm hd)

theorem Text.isScalar_of_subset {t u : Text} (h : t ⊆ u) (hu : u.isScalar = true) :
    t.isScalar = true := by
  rw [isScalar, List.all_eq_true] at *
  exact fun c hc => hu c (h hc)

namespace Store

/-- All layers hold simple values only, and no text of theirs has a surrogate. -/
structure IsSimple (s : Store) : Prop where
  simple : ∀ l ∈ s.layers, ∀ e ∈ l.entries, e.2.IsSimple
  scalar : ∀ l ∈ s.layers, ∀ e ∈ l.entries, ∀ t, e.2 = .text t → t.isScalar = true

namespace IsSimple

variable {s : Store} {key : Text}

theorem value (h : s.IsSimple) (hc : s.contains key = true) :
    (s.value key).IsSimple ∧ (s.value key).rendered.isScalar = true := by
  rw [contains_eq_isSome] at hc
  obtain ⟨v, hv⟩ := Option.isSome_iff_exists.mp hc
  obtain ⟨l, hl, hg⟩ := exists_of_findIn_eq_some hv
  have he := OrderedMap.mem_of_get? hg
  have hs := h.simple l hl _ he
  rw [value_eq_of_find? hv]
  exact ⟨hs, hs.isScalar_rendered (h.scalar l hl _ he)⟩

/-- Names of variables without surrogates can be asked for, and what other keys hold has none
either. -/
theorem expandable (h : s.IsSimple) {t : Text} (ht : t.isScalar = true) (depth : Nat) :
    s.Expandable depth t := by
  induction depth generalizing t with
  | zero => trivial
  | succ depth ih =>
    intro name hn
    have hs : name.isScalar = true := Text.isScalar_of_subset (Piece.name_subset hn) ht
    rw [Resolvable]
    cases hd : Text.dropPrefix? environmentMark name with
    | some named =>
      have he := Text.dropPrefix?_eq_some_iff.mp hd
      have hsub : named ⊆ name := he ▸ List.subset_append_right _ _
      exact Text.isEncodable_of_isScalar (Text.isScalar_of_subset hsub hs)
    | none =>
      by_cases hv : s.value name = .null
      · exact .inl hv
      · obtain ⟨hw, hr⟩ := h.value (contains_of_value_ne_null hv)
        exact .inr ⟨_, hw.settingText?, ih hr⟩

theorem exists_getText (h : s.IsSimple) (env : Environment) (key : Text) :
    ∃ r, s.getText env key (some .null) = .ok r := by
  by_cases hv : s.value key = .null
  · exact ⟨none, by rw [getText_eq, readWith_of_null hv]; rfl⟩
  · obtain ⟨hw, hr⟩ := h.value (contains_of_value_ne_null hv)
    obtain ⟨t, ht⟩ := exists_expand_iff.mpr (h.expandable hr expansionDepth)
    have hi : s.interpolate env (s.value key).rendered = .ok t := ht
    refine ⟨some t, ?_⟩
    rw [getText_eq, readWith_of_ne_null hv, shownText, hw.settingText]
    simp only [Except.bind, bind, hi]
    rfl

theorem of_entries {es : List (Text × Value)} (hs : ∀ e ∈ es, e.2.IsSimple)
    (ht : ∀ e ∈ es, ∀ t, e.2 = .text t → t.isScalar = true) (isStrict : Bool) :
    ((empty isStrict).addLayer (.ofList es)).IsSimple := by
  have hm : ∀ l ∈ ((empty isStrict).addLayer (.ofList es)).layers, ∀ e ∈ l.entries, e ∈ es := by
    intro l hl e he
    rcases List.mem_cons.mp hl with rfl | hl
    · exact absurd he List.not_mem_nil
    · obtain rfl := List.mem_singleton.mp hl
      exact OrderedMap.mem_of_mem_ofList he
  exact ⟨fun l hl e he => hs e (hm l hl e he), fun l hl e he => ht e (hm l hl e he)⟩

end IsSimple

end Store

namespace Logged

/-- A check that passes if nothing is said against it. -/
def objecting (lines : List LogLine) : Logged Bool := ⟨lines, .ok lines.isEmpty⟩

theorem objecting_bind {α : Type} (lines : List LogLine) (f : Bool → Logged α) :
    objecting lines >>= f = ⟨lines ++ (f lines.isEmpty).lines, (f lines.isEmpty).result⟩ :=
  bind_ok rfl

theorem isEmpty_append (a b : List LogLine) : (a ++ b).isEmpty = (a.isEmpty && b.isEmpty) := by
  cases a <;> rfl

theorem objecting_and (a b : List LogLine) :
    (do return (← objecting a) && (← objecting b)) = objecting (a ++ b) := by
  rw [objecting_bind, objecting_bind, pure_lines, pure_result, List.append_nil, objecting,
    isEmpty_append]

end Logged

namespace Role.Inspection

open Logged

/-- Whether a key reads as a text that is not empty. -/
def isGiven (read : Text → Option Text) (key : Text) : Bool := (read key).any fun t => !t.isEmpty

/-- One line, with the same remark, for each key that it is true of. -/
def keyLines (channel : Channel) (remark : Text) (p : Text → Bool) (keys : List Text) :
    List LogLine :=
  (keys.filter p).map fun key => ⟨channel, .info, key ++ remark⟩

def unsetLines (channel : Channel) (read : Text → Option Text) : List Text → List LogLine :=
  keyLines channel " is not set" fun key => !isGiven read key

def presentLines (channel : Channel) (read : Text → Option Text) : List Text → List LogLine :=
  keyLines channel " should not be set" (isGiven read)

/-- The keys that are present are told one by one, and then once for all that they conflict. -/
def conflictLines (channel : Channel) (read : Text → Option Text) (keys : List Text) :
    List LogLine :=
  presentLines channel read keys ++
    if (presentLines channel read keys).isEmpty then [] else [⟨channel, .error, conflictMessage⟩]

variable {i : Inspection} {read : Text → Option Text}

theorem isSet_of_reads (h : ∀ key, i.store.getText i.env key (some .null) = .ok (read key))
    (hs : i.store.IsSimple) (key : Text) : i.isSet key = .ok (isGiven read key) := by
  by_cases hc : i.store.contains key = true
  · have hv := (hs.value hc).1.ne_null
    rw [isSet, if_pos hc, Store.getText_eq_of_value hv none (some .null), h]
    rfl
  · have hv := Store.value_of_not_contains (Bool.eq_false_iff.mpr hc)
    have hr := h key
    rw [Store.getText_eq, Store.readWith_of_null hv] at hr
    rw [isSet, if_neg hc, isGiven, ← Except.ok.inj hr]
    rfl

theorem keyLines_append (channel : Channel) (remark : Text) (p : Text → Bool)
    (ks ks' : List Text) : keyLines channel remark p (ks ++ ks') =
      keyLines channel remark p ks ++ keyLines channel remark p ks' := by
  simp [keyLines]

theorem allOf_eq {test : Text → Logged Bool} {channel : Channel} {remark : Text}
    {p : Text → Bool} (h : ∀ key, test key = objecting (keyLines channel remark p [key]))
    (keys : List Text) : allOf test keys = objecting (keyLines channel remark p keys) := by
  induction keys with
  | nil => rfl
  | cons key keys ih =>
    have ha := keyLines_append channel remark p [key] keys
    rw [List.singleton_append] at ha
    rw [allOf, h, ih, objecting_and, ha]

/-! ### The lines of each check -/

section

variable (h : ∀ key, i.isSet key = .ok (isGiven read key))

include h

theorem requireSet_eq (key : Text) :
    i.requireSet key = objecting (unsetLines i.channel read [key]) := by
  rw [requireSet, h, bind_ok rfl, unsetLines, keyLines]
  cases hg : isGiven read key <;> simp [hg] <;> rfl

theorem requireUnset_eq (key : Text) :
    i.requireUnset key = objecting (presentLines i.channel read [key]) := by
  rw [requireUnset, h, bind_ok rfl, presentLines, keyLines]
  cases hg : isGiven read key <;> simp [hg] <;> rfl

theorem checkClient_eq :
    i.checkClient = objecting (unsetLines i.channel read clientKeys) :=
  allOf_eq (requireSet_eq h) clientKeys

theorem checkAdmin_eq : i.checkAdmin =
    objecting (unsetLines i.channel read (clientKeys ++ [Setting.accumuloTable.key])) := by
  rw [checkAdmin, checkClient_eq h, requireSet_eq h, objecting_and, unsetLines, ← keyLines_append]

theorem checkEmbedded_eq :
    i.checkEmbedded = objecting (conflictLines i.channel read miniForbiddenKeys) := by
  have hp : allOf i.requireUnset miniForbiddenKeys =
      objecting (presentLines i.channel read miniForbiddenKeys) :=
    allOf_eq (requireUnset_eq h) miniForbiddenKeys
  rw [checkEmbedded, hp, objecting_bind, conflictLines]
  cases hl : presentLines i.channel read miniForbiddenKeys with
  | nil => rfl
  | cons line lines => rfl

/-- The client's keys are looked at four times, the table's once. -/
theorem checkAttached_eq :
    i.checkAttached = objecting (unsetLines i.channel read clientKeys ++
      (unsetLines i.channel read (clientKeys ++ [Setting.accumuloTable.key]) ++
        (unsetLines i.channel read clientKeys ++ unsetLines i.channel read clientKeys))) := by
  rw [checkAttached, checkClient_eq h, checkAdmin_eq h]
  simp only [objecting_bind, pure_lines, pure_result, List.append_nil, Bool.and_assoc]
  simp only [objecting, isEmpty_append]

/-- Asking again finds nothing that the check of the admin did not find. -/
theorem checkAttached_alike :
    i.checkAttached.result = i.checkAdmin.result ∧
      ∀ line, line ∈ i.checkAttached.lines ↔ line ∈ i.checkAdmin.lines := by
  have ha : unsetLines i.channel read (clientKeys ++ [Setting.accumuloTable.key]) =
      unsetLines i.channel read clientKeys ++
        unsetLines i.channel read [Setting.accumuloTable.key] := keyLines_append ..
  rw [checkAttached_eq h, checkAdmin_eq h, ha]
  generalize unsetLines i.channel read clientKeys = client
  generalize unsetLines i.channel read [Setting.accumuloTable.key] = table
  constructor
  · simp only [objecting, isEmpty_append]
    cases client.isEmpty <;> simp
  · intro line
    simp only [objecting, List.mem_append]
    tauto

end

/-! ### The flag -/

theorem exists_get_flag (hs : i.store.IsSimple) :
    (∃ b, i.store.get i.env .miniStartAccumulo = .ok (.bool b)) ∨
      ∃ shown, (i.store.value flagKey).literal? = some shown ∧
        i.store.get i.env .miniStartAccumulo =
          .error (.notTruth flagKey (i.store.value flagKey)) := by
  by_cases hv : i.store.value flagKey = .null
  · exact .inl ⟨true, get_flag_of_null hv i.env⟩
  · rw [get_flag_of_ne_null hv]
    have hp := (hs.value (Store.contains_of_value_ne_null hv)).1.isSome_plain?
    obtain ⟨hn, -⟩ | ⟨-, ⟨b, hb⟩ | he⟩ := Value.toTruth_cases flagKey (i.store.value flagKey)
    · rw [hn] at hp
      cases hp
    · exact .inl ⟨b, by rw [hb]; rfl⟩
    · obtain ⟨shown, hl⟩ := Option.isSome_iff_exists.mp (Value.isSome_literal?_of_plain? hp)
      exact .inr ⟨shown, hl, by rw [he]; rfl⟩

theorem mini_of_flag {b : Bool} (h : i.store.get i.env .miniStartAccumulo = .ok (.bool b)) :
    Role.mini.check i = if b then i.checkEmbedded else i.checkAttached := by
  have hb : (Value.bool b).isVoid = !b := by cases b <;> rfl
  have hc : i.checkMini = if (Value.bool b).isVoid then i.checkAttached else i.checkEmbedded := by
    rw [checkMini, h]
  rw [Role.check, hc, hb]
  cases b with
  | true => rw [Bool.not_true, if_neg Bool.false_ne_true, if_pos rfl]
  | false => rw [Bool.not_false, if_pos rfl, if_neg Bool.false_ne_true]

theorem exists_mini_eq (hs : i.store.IsSimple)
    (h : ∀ key, i.isSet key = .ok (isGiven read key)) :
    ∃ lines, Role.mini.check i = objecting lines := by
  obtain ⟨b, hb⟩ | ⟨shown, hl, he⟩ := exists_get_flag hs
  · rw [mini_of_flag hb]
    cases b with
    | true => exact ⟨_, checkEmbedded_eq h⟩
    | false => exact ⟨_, checkAttached_eq h⟩
  · exact ⟨_, checkMini_of_notTruth he hl⟩

/-! ### All roles -/

/-- What the checks log where every key reads as a text or not at all. -/
structure Reports (i : Inspection) (read : Text → Option Text) : Prop where
  reads (key : Text) : i.store.getText i.env key (some .null) = .ok (read key)
  passes (role : Role) : ∃ lines, role.check i = objecting lines
  client (role : Role) (hr : role ∈ [Role.client, .oracle, .worker]) :
    role.check i = objecting (unsetLines i.channel read clientKeys)
  admin : Role.admin.check i =
    objecting (unsetLines i.channel read (clientKeys ++ [Setting.accumuloTable.key]))
  flag : (∃ b, i.store.get i.env .miniStartAccumulo = .ok (.bool b)) ∨
    ∃ fault, i.store.get i.env .miniStartAccumulo = .error fault
  unclear (fault : Fault) (hf : i.store.get i.env .miniStartAccumulo = .error fault) :
    ∃ shown, (i.store.value flagKey).literal? = some shown ∧
      Role.mini.check i = objecting [flagLine i.channel shown]
  embedded (hf : i.store.get i.env .miniStartAccumulo = .ok (.bool true)) :
    Role.mini.check i = objecting (conflictLines i.channel read miniForbiddenKeys)
  attached (hf : i.store.get i.env .miniStartAccumulo = .ok (.bool false)) :
    (Role.mini.check i).result = (Role.admin.check i).result ∧
      ∀ line, line ∈ (Role.mini.check i).lines ↔ line ∈ (Role.admin.check i).lines

/-- Over simple values the checks come to a verdict and tell all that stands against it. -/
theorem exists_reports (hs : i.store.IsSimple) : ∃ read, i.Reports read := by
  choose read hr using hs.exists_getText i.env
  have h := isSet_of_reads hr hs
  have hc := checkClient_eq h
  refine ⟨read, ?_⟩
  constructor
  case reads => exact hr
  case admin => exact checkAdmin_eq h
  case passes =>
    intro role
    cases role with
    | client | oracle | worker => exact ⟨_, hc⟩
    | admin => exact ⟨_, checkAdmin_eq h⟩
    | mini => exact exists_mini_eq hs h
  case client =>
    intro role hm
    simp only [List.mem_cons, List.not_mem_nil, or_false] at hm
    rcases hm with rfl | rfl | rfl <;> exact hc
  case flag => exact (exists_get_flag hs).imp_right fun ⟨_, _, he⟩ => ⟨_, he⟩
  case unclear =>
    intro fault hf
    obtain ⟨b, hb⟩ | ⟨shown, hl, he⟩ := exists_get_flag hs
    · cases hb.symm.trans hf
    · exact ⟨shown, hl, checkMini_of_notTruth he hl⟩
  case embedded =>
    intro hf
    rw [mini_of_flag hf]
    exact checkEmbedded_eq h
  case attached =>
    intro hf
    rw [mini_of_flag hf]
    exact checkAttached_alike h

/-- A user that is a reference, an empty password, and a flag that is written out. -/
def detachedEntries : List (Text × Value) :=
  [(Setting.accumuloUser.key, .text "${k}"), ("k", .int 7),
    (Setting.accumuloPassword.key, .text []), (flagKey, .text "off")]

def detached : Inspection :=
  ⟨(Store.empty true).addLayer (.ofList detachedEntries), [], .roles⟩

theorem detached_isSimple : detached.store.IsSimple := by
  have hn : (Value.int 7).IsSimple := .int_of_le (k := 1) (by decide) (by decide)
  have hs : ∀ e ∈ detachedEntries, e.2.IsSimple := by
    simp only [detachedEntries, List.forall_mem_cons]
    exact ⟨.text _, hn, .text _, .text _, nofun⟩
  have ht : ∀ e ∈ detachedEntries, ∀ t, e.2 = .text t → t.isScalar = true := by
    simp only [detachedEntries, List.forall_mem_cons, Value.text.injEq, forall_eq']
    exact ⟨by decide, nofun, by decide, by decide, nofun⟩
  exact .of_entries hs ht true

theorem detached_reports : detached.store.IsSimple ∧ ∃ read, detached.Reports read :=
  ⟨detached_isSimple, exists_reports detached_isSimple⟩

end Role.Inspection

end LayeredConfig
