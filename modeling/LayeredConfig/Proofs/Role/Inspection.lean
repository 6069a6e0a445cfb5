import LayeredConfig.Proofs.Store.Reads
import LayeredConfig.Role

/-! What the checks of roles depend on: the keys that are set, the channel, and for the role that
may start a store of data of its own the flag that says so. -/

namespace LayeredConfig.Role.Inspection

/-- Two inspections that log alike and find the same of some keys set. -/
structure SeesOn (keys : List Text) (i' i : Inspection) : Prop where
  channel : i'.channel = i.channel
  isSet : ∀ key ∈ keys, i'.isSet key = i.isSet key

structure SeesAs (i' i : Inspection) : Prop where
  channel : i'.channel = i.channel
  isSet : i'.isSet = i.isSet

theorem allOf_congr {test' test : Text → Logged Bool} {keys : List Text}
    (h : ∀ key ∈ keys, test' key = test key) : allOf test' keys = allOf test keys := by
  induction keys with
  | nil => rfl
  | cons key keys ih =>
    obtain ⟨hk, hks⟩ := List.forall_mem_cons.mp h
    rw [allOf, allOf, hk, ih hks]

namespace SeesOn

variable {keys : List Text} {key : Text} {i' i : Inspection}

theorem requireSet (h : SeesOn keys i' i) (hk : key ∈ keys) :
    i'.requireSet key = i.requireSet key := by
  rw [Inspection.requireSet, Inspection.requireSet, h.channel, h.isSet key hk]

theorem requireUnset (h : SeesOn keys i' i) (hk : key ∈ keys) :
    i'.requireUnset key = i.requireUnset key := by
  rw [Inspection.requireUnset, Inspection.requireUnset, h.channel, h.isSet key hk]

theorem checkClient (h : SeesOn keys i' i) (hk : clientKeys ⊆ keys) :
    i'.checkClient = i.checkClient :=
  allOf_congr fun _ hm => h.requireSet (hk hm)

theorem checkAdmin (h : SeesOn keys i' i) (hk : clientKeys ++ [Setting.accumuloTable.key] ⊆ keys) :
    i'.checkAdmin = i.checkAdmin := by
  rw [List.append_subset, List.cons_subset] at hk
  rw [Inspection.checkAdmin, Inspection.checkAdmin, h.checkClient hk.1, h.requireSet hk.2.1]

theorem checkEmbedded (h : SeesOn keys i' i) (hk : miniForbiddenKeys ⊆ keys) :
    i'.checkEmbedded = i.checkEmbedded := by
  have hu : allOf i'.requireUnset miniForbiddenKeys = allOf i.requireUnset miniForbiddenKeys :=
    allOf_congr fun _ hm => h.requireUnset (hk hm)
  rw [Inspection.checkEmbedded, Inspection.checkEmbedded, hu, h.channel]

theorem checkAttached (h : SeesOn keys i' i)
    (hk : clientKeys ++ [Setting.accumuloTable.key] ⊆ keys) :
    i'.checkAttached = i.checkAttached := by
  have hc := (List.append_subset.mp hk).1
  rw [Inspection.checkAttached, Inspection.checkAttached, h.checkClient hc, h.checkAdmin hk]

end SeesOn

namespace SeesAs

variable {i' i : Inspection}

theorem on (h : i'.SeesAs i) (keys : List Text) : SeesOn keys i' i :=
  ⟨h.channel, fun key _ => congrFun h.isSet key⟩

theorem checkMini (h : i'.SeesAs i)
    (hf : i'.store.get i'.env .miniStartAccumulo = i.store.get i.env .miniStartAccumulo) :
    i'.checkMini = i.checkMini := by
  rw [Inspection.checkMini, Inspection.checkMini, hf, (h.on _).checkAttached fun _ hm => hm,
    (h.on _).checkEmbedded fun _ hm => hm, h.channel]

theorem check_of_ne_mini (h : i'.SeesAs i) {role : Role} (hr : role ≠ .mini) :
    role.check i' = role.check i := by
  cases role with
  | client | oracle | worker => exact (h.on _).checkClient fun _ hm => hm
  | admin => exact (h.on _).checkAdmin fun _ hm => hm
  | mini => exact absurd rfl hr

end SeesAs

/-! ### The flag -/

def flagKey : Text := Setting.miniStartAccumulo.key

theorem get_flag_eq (s : Store) (env : Environment) : s.get env .miniStartAccumulo =
    s.getTruth flagKey (some (.bool true)) >>= fun b =>
      Kind.truth.check flagKey ((b.map Value.bool).getD .null) := by
  change (s.getTruth flagKey (some (.bool true)) >>= _) >>= _ = _
  cases s.getTruth flagKey (some (.bool true)) <;> rfl

theorem get_flag_of_null {s : Store} (h : s.value flagKey = .null) (env : Environment) :
    s.get env .miniStartAccumulo = .ok (.bool true) := by
  rw [get_flag_eq, Store.getTruth, Store.readWith_of_null h]
  rfl

theorem get_flag_of_ne_null {s : Store} (h : s.value flagKey ≠ .null) (env : Environment) :
    s.get env .miniStartAccumulo = (Value.toTruth flagKey (s.value flagKey)).map Value.bool := by
  rw [get_flag_eq, Store.getTruth, Store.readWith_of_ne_null h]
  cases Value.toTruth flagKey (s.value flagKey) <;> rfl

def flagLine (channel : Channel) (shown : Text) : LogLine :=
  ⟨channel, .error, Fault.quotes flagKey ++ (" doesn't map to a boolean object" : Text) ++
    (" (Details: \x7b'value': " : Text) ++ shown ++ ("\x7d)" : Text)⟩

theorem flagLine_injective {channel : Channel} {t u : Text}
    (h : flagLine channel t = flagLine channel u) : t = u := by
  have hm := congrArg LogLine.message h
  exact List.append_cancel_left (List.append_cancel_right hm)

theorem checkMini_of_notTruth {i : Inspection} {v : Value} {shown : Text}
    (hf : i.store.get i.env .miniStartAccumulo = .error (.notTruth flagKey v))
    (hv : v.literal? = some shown) :
    i.checkMini = ⟨[flagLine i.channel shown], .ok false⟩ := by
  have hq : Text.quoted "value" = "'value'" := by decide
  have hd : (Value.map [(.text "value", v)]).literal? =
      some (("\x7b'value': " : Text) ++ shown ++ ("\x7d" : Text)) := by
    simp only [Value.literal?, Value.entryLiterals?, hv, hq]
    simp [Text.join]
  have ht : (Fault.notTruth flagKey v).text = .ok (flagLine i.channel shown).message := by
    have hr : (Fault.notTruth flagKey v).report? = some ⟨.configuration,
        Fault.quotes flagKey ++ (" doesn't map to a boolean object" : Text),
        [(.text "value", v)]⟩ := rfl
    simp only [Fault.text, hr, Report.text?, List.isEmpty_cons, hd]
    simp [flagLine]
  have hc : (Fault.notTruth flagKey v).isConfiguration = true := rfl
  rw [checkMini, hf]
  simp only [hc, if_true, ht]
  rfl

end LayeredConfig.Role.Inspection
