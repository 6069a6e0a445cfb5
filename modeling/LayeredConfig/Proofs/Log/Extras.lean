import LayeredConfig.Proofs.Log.Record

/-! Extras that a logger takes, and which of them hide what the record itself shows. The logger
refuses the names under which it holds the record, but four members are shown under other
names. -/

namespace LayeredConfig.Record

/-- The names under which a logger holds what it knows of a record. -/
def attributeNames : List Text :=
  ["name", "msg", "args", "levelname", "levelno", "pathname", "filename", "module", "exc_info",
    "exc_text", "stack_info", "lineno", "funcName", "created", "msecs", "relativeCreated",
    "thread", "threadName", "processName", "process"]

/-- Whether a logger takes an extra of this name. -/
def isAdmitted (name : Text) : Bool :=
  !attributeNames.contains name && name ≠ "message" && name ≠ "asctime"

def withExtras (r : Record) (extras : OrderedMap Value) : Record :=
  extras.entries.foldl (fun r e => r.set e.1 e.2) r

/-- The extras that are shown. -/
def shownExtras (extras : OrderedMap Value) : OrderedMap Value :=
  extras.restrict fun name => !reservedNames.contains name

/-- Whether a reader finds the record's own members in an object. -/
def ShowsRecord (r : Record) (message : Text) (v : Value) : Prop :=
  ∀ e ∈ r.coreMembers message, JsonText.member? e.1 v = some (JsonText.reread e.2)

variable {r : Record} {time : Binary64} {extras : OrderedMap Value} {m : OrderedMap Value}
  {message t : Text}

/-! ### Setting extras -/

theorem set_of_isAdmitted {name : Text} (h : isAdmitted name = true) (r : Record) (v : Value) :
    r.set name v =
      if reservedNames.contains name then r else { r with extras := r.extras.insert name v } := by
  simp only [isAdmitted, attributeNames, Bool.and_eq_true, Bool.not_eq_true', List.contains_eq_mem,
    List.mem_cons, List.not_mem_nil, decide_eq_false_iff_not, not_or] at h
  simp only [set, h, if_false]

/-- What a logger takes changes nothing of a record but its extras. -/
theorem withExtras_eq (h : ∀ name ∈ extras.keys, isAdmitted name = true) (r : Record) :
    r.withExtras extras = { r with extras := r.extras.update (shownExtras extras) } := by
  have hh (es : List (Text × Value)) (hes : ∀ e ∈ es, isAdmitted e.1 = true) (r : Record) :
      es.foldl (fun r e => r.set e.1 e.2) r =
        { r with extras := ((es.filter fun e => !reservedNames.contains e.1).foldl
            (fun m e => m.insert e.1 e.2) r.extras) } := by
    induction es generalizing r with
    | nil => rfl
    | cons e es ih =>
      obtain ⟨he, hes⟩ := List.forall_mem_cons.mp hes
      rw [List.foldl_cons, set_of_isAdmitted he, ih hes, List.filter_cons]
      cases reservedNames.contains e.1 <;> rfl
  exact hh _ (fun e he => h e.1 (List.mem_map_of_mem he)) r

theorem extras_withExtras (h : ∀ name ∈ extras.keys, isAdmitted name = true) (r : Record) :
    (r.withExtras extras).extras = r.extras.update (shownExtras extras) := by
  rw [withExtras_eq h]

theorem message_withExtras (h : ∀ name ∈ extras.keys, isAdmitted name = true) (r : Record) :
    (r.withExtras extras).message = r.message := by
  rw [withExtras_eq h]
  rfl

theorem ownMembers_withExtras (h : ∀ name ∈ extras.keys, isAdmitted name = true)
    (time : Binary64) (message : Text) (r : Record) :
    (r.withExtras extras).ownMembers time message = r.ownMembers time message := by
  rw [withExtras_eq h]
  rfl

theorem get?_shownExtras_eq_some_iff {name : Text} {v : Value} :
    (shownExtras extras).get? name = some v ↔
      reservedNames.contains name = false ∧ extras.get? name = some v := by
  rw [shownExtras, OrderedMap.get?_restrict]
  cases reservedNames.contains name <;> simp

/-! ### Members and extras of the same name -/

/-- What is shown under a name: the extra, or else what the record has of its own. -/
theorem get?_update_ownMembers (time : Binary64) (message : Text) (r : Record) (name : Text) :
    ((OrderedMap.ofList (r.ownMembers time message)).update r.extras).get? name =
      (r.extras.get? name).or (OrderedMap.find? name (r.ownMembers time message)) := by
  rw [OrderedMap.get?_update, OrderedMap.get?, OrderedMap.get?,
    OrderedMap.ofList_entries (nodup_ownMembers time message r)]

theorem isTypable_of_mem_coreMembers {e : Text × Value} (he : e ∈ r.coreMembers message) :
    e.1.IsTypable := by
  have hn : ∀ name ∈ (["level", "logger", "message", "module", "function", "line"] : List Text),
      name.IsTypable := by decide
  exact hn e.1 (List.mem_map_of_mem (f := Prod.fst) he)

theorem find?_ownMembers_of_mem (time : Binary64) {e : Text × Value}
    (he : e ∈ r.coreMembers message) :
    OrderedMap.find? e.1 (r.ownMembers time message) = some e.2 :=
  OrderedMap.find?_of_mem (nodup_ownMembers time message r)
    (List.mem_cons_of_mem _ (List.mem_append_left _ he))

/-- A reader finds a member of the record unless an extra of its name is shown in its place and
read as something else. -/
theorem member?_reread_withExtras_iff (hr : r.extras = .empty)
    (hx : ∀ name ∈ extras.keys, isAdmitted name = true) (hm : r.message = .ok message)
    (h : (r.withExtras extras).membersAt time = .ok m) {e : Text × Value}
    (he : e ∈ r.coreMembers message) :
    JsonText.member? e.1 (JsonText.reread (.ofOrderedMap m)) = some (JsonText.reread e.2) ↔
      ∀ v, (shownExtras extras).get? e.1 = some v → JsonText.reread v = JsonText.reread e.2 := by
  obtain ⟨message', hm', rfl⟩ := membersAt_eq_ok_iff.mp h
  rw [message_withExtras hx] at hm'
  cases hm.symm.trans hm'
  rw [JsonText.member?_reread (isTypable_of_mem_coreMembers he), get?_update_ownMembers,
    extras_withExtras hx, hr, OrderedMap.get?_update, OrderedMap.get?_empty, Option.or_none,
    ownMembers_withExtras hx, find?_ownMembers_of_mem time he]
  cases (shownExtras extras).get? e.1 <;> simp

/-- The members whose names are not reserved. -/
def openMembers (r : Record) : List (Text × Value) :=
  [("level", r.severity), ("logger", r.logger), ("function", r.function), ("line", r.line)]

theorem filter_coreMembers (r : Record) (message : Text) :
    (r.coreMembers message).filter (fun e => !reservedNames.contains e.1) = r.openMembers := rfl

/-- The message and the module are always the record's. The other members are if no extra of
the same name is read as something else. -/
theorem showsRecord_withExtras_iff (hr : r.extras = .empty)
    (hx : ∀ name ∈ extras.keys, isAdmitted name = true)
    (ht : (r.withExtras extras).textAt time = .ok t) :
    ∃ message m, r.message = .ok message ∧ (r.withExtras extras).membersAt time = .ok m ∧
      JsonText.write (.ofOrderedMap m) = .ok t ∧
      JsonText.member? "message" (JsonText.reread (.ofOrderedMap m)) =
        some (JsonText.reread (.text message)) ∧
      JsonText.member? "module" (JsonText.reread (.ofOrderedMap m)) =
        some (JsonText.reread r.moduleName) ∧
      (ShowsRecord r message (JsonText.reread (.ofOrderedMap m)) ↔
        ∀ e ∈ r.openMembers, ∀ v, extras.get? e.1 = some v →
          JsonText.reread v = JsonText.reread e.2) := by
  obtain ⟨m, hm, hw⟩ := textAt_eq_ok_iff.mp ht
  obtain ⟨message, hmsg, -⟩ := membersAt_eq_ok_iff.mp hm
  rw [message_withExtras hx] at hmsg
  have hi {e : Text × Value} (he : e ∈ r.coreMembers message) :=
    member?_reread_withExtras_iff hr hx hmsg hm he
  simp only [get?_shownExtras_eq_some_iff] at hi
  have hf {e : Text × Value} (he : e ∈ r.coreMembers message)
      (hn : reservedNames.contains e.1 = true) :
      JsonText.member? e.1 (JsonText.reread (.ofOrderedMap m)) = some (JsonText.reread e.2) :=
    (hi he).mpr fun v hv => absurd (hn.symm.trans hv.1) Bool.noConfusion
  refine ⟨message, m, hmsg, hm, hw, ?_, ?_, ?_⟩
  · exact hf (e := ("message", .text message)) (by simp [coreMembers]) rfl
  · exact hf (e := ("module", r.moduleName)) (by simp [coreMembers]) rfl
  · rw [← filter_coreMembers r message]
    simp only [List.mem_filter, Bool.not_eq_true', and_imp]
    refine forall₂_congr fun e he => (hi he).trans ?_
    exact ⟨fun h hn v hv => h v ⟨hn, hv⟩, fun h v hv => h hv.1 v hv.2⟩

def failure : Record where
  logger := .text "fluo.test"
  severity := .text "ERROR"
  template := .text "m"
  arguments := .ordered []
  moduleName := .text "mod"
  function := .text "fn"
  line := .int 1
  incident := none
  extras := .empty

/-- The same severity, given again. -/
def restated : OrderedMap Value :=
  .ofList [("level", .text "ERROR"), ("property_key", .text "io.fluo.x")]

theorem restated_showsRecord : ∃ m,
    (failure.withExtras restated).membersAt (.finite false 3 (-1)) = .ok m ∧
    ShowsRecord failure "m" (JsonText.reread (.ofOrderedMap m)) := by
  have hx : ∀ name ∈ restated.keys, isAdmitted name = true := by decide
  have hs : ((failure.withExtras restated).textAt (.finite false 3 (-1))).toOption.isSome =
      true := by decide +kernel
  obtain ⟨t, ht⟩ := Option.isSome_iff_exists.mp hs
  obtain ⟨message, m, hmsg, hm, -, -, -, hi⟩ :=
    showsRecord_withExtras_iff rfl hx (Except.toOption_eq_some_iff.mp ht)
  cases hmsg
  refine ⟨m, hm, hi.mpr ?_⟩
  intro e he v hv
  simp only [openMembers, List.mem_cons, List.not_mem_nil, or_false] at he
  rcases he with rfl | rfl | rfl | rfl
  · cases hv
    rfl
  all_goals exact nomatch hv

/-- Another severity than the record's. -/
def disguise : OrderedMap Value := .ofList [("level", .text "DEBUG")]

theorem disguise_not_showsRecord :
    failure.extras = .empty ∧ (∀ name ∈ disguise.keys, isAdmitted name = true) ∧
    failure.message = .ok "m" ∧ ∃ m t,
      (failure.withExtras disguise).membersAt (.finite false 3 (-1)) = .ok m ∧
      (failure.withExtras disguise).textAt (.finite false 3 (-1)) = .ok t ∧
      JsonText.write (.ofOrderedMap m) = .ok t ∧
      JsonText.member? "level" (JsonText.reread (.ofOrderedMap m)) = some (.text "DEBUG") ∧
      ¬ ShowsRecord failure "m" (JsonText.reread (.ofOrderedMap m)) := by
  have hs : ((failure.withExtras disguise).textAt (.finite false 3 (-1))).toOption.isSome =
      true := by decide +kernel
  obtain ⟨t, ht⟩ := Option.isSome_iff_exists.mp hs
  have ht := Except.toOption_eq_some_iff.mp ht
  obtain ⟨m, hm, hw⟩ := textAt_eq_ok_iff.mp ht
  have hl : JsonText.member? "level" (JsonText.reread (.ofOrderedMap m)) =
      some (.text "DEBUG") := by
    cases hm
    rfl
  refine ⟨rfl, by decide, rfl, m, t, hm, ht, hw, hl, fun h => ?_⟩
  have hr := hl.symm.trans (h ("level", .text "ERROR") List.mem_cons_self)
  exact absurd hr (by simp [JsonText.reread, JsonText.joinUnits])

end LayeredConfig.Record
