import LayeredConfig.Log.Plan
import LayeredConfig.Proofs.Log.JsonText
import LayeredConfig.Proofs.Text.Lines

/-! Records in a structured log file. A record shows its own members and its extras, an extra in
the place of a member of the same name, and it takes one line whatever it holds. -/

namespace LayeredConfig

namespace Record

variable {r : Record} {time : Binary64} {m : OrderedMap Value} {t : Text}

/-! ### Members -/

theorem nodup_ownMembers (time : Binary64) (message : Text) (r : Record) :
    ((r.ownMembers time message).map Prod.fst).Nodup := by
  rw [ownMembers, coreMembers, incidentMember]
  cases r.incident with
  | none =>
    change ([timeName, "level", "logger", "message", "module", "function", "line"] :
      List Text).Nodup
    decide
  | some i =>
    change ([timeName, "level", "logger", "message", "module", "function", "line",
      "exception"] : List Text).Nodup
    decide

theorem membersAt_eq_ok_iff : r.membersAt time = .ok m ↔ ∃ message, r.message = .ok message ∧
    (OrderedMap.ofList (r.ownMembers time message)).update r.extras = m := by
  rw [membersAt, Except.bind_eq_ok_iff]
  exact exists_congr fun message => and_congr_right fun _ =>
    ⟨Except.ok.inj, congrArg Except.ok⟩

theorem textAt_eq_ok_iff : r.textAt time = .ok t ↔
    ∃ m, r.membersAt time = .ok m ∧ JsonText.write (.ofOrderedMap m) = .ok t := by
  rw [textAt, Except.bind_eq_ok_iff]
  exact exists_congr fun m => and_congr_right fun _ => Except.mapError_eq_ok_iff

/-! ### One line for each record -/

theorem isTypable_textAt (h : r.textAt time = .ok t) : t.IsTypable := by
  obtain ⟨m, -, hw⟩ := textAt_eq_ok_iff.mp h
  exact JsonText.isTypable_of_write hw

/-- The time and what is shown of an incident can always be written. -/
theorem exists_write_update_ownMembers_iff (time : Binary64) (message : Text) (r : Record) :
    (∃ t, JsonText.write (.ofOrderedMap
      ((OrderedMap.ofList (r.ownMembers time message)).update r.extras)) = .ok t) ↔
    (∀ e ∈ r.extras.entries, ∃ t, JsonText.write e.2 = .ok t) ∧
      ∀ e ∈ r.coreMembers message, e.1 ∉ r.extras.keys → ∃ t, JsonText.write e.2 = .ok t := by
  have hi : ∀ e ∈ r.incidentMember, ∃ t, JsonText.write e.2 = .ok t := by
    intro e he
    obtain ⟨i, -, rfl⟩ := List.mem_map.mp he
    exact ⟨_, rfl⟩
  rw [JsonText.exists_write_ofOrderedMap_iff]
  simp only [OrderedMap.mem_entries_update, or_imp, forall_and, and_imp,
    OrderedMap.ofList_entries (nodup_ownMembers time message r)]
  refine and_congr_right fun _ => ⟨fun h e he => h e ?_, fun h e he hn => ?_⟩
  · exact List.mem_cons_of_mem _ (List.mem_append_left _ he)
  · rcases List.mem_cons.mp he with rfl | he
    · exact ⟨_, rfl⟩
    · exact (List.mem_append.mp he).elim (fun he => h e he hn) (hi e)

/-- A record can be written if its message can be filled in and the values that it shows can be
written, whatever the time. -/
theorem exists_textAt_iff : (∃ t, r.textAt time = .ok t) ↔ ∃ message, r.message = .ok message ∧
    (∀ e ∈ r.extras.entries, ∃ t, JsonText.write e.2 = .ok t) ∧
    ∀ e ∈ r.coreMembers message, e.1 ∉ r.extras.keys → ∃ t, JsonText.write e.2 = .ok t := by
  constructor
  · rintro ⟨t, ht⟩
    obtain ⟨m, hm, hw⟩ := textAt_eq_ok_iff.mp ht
    obtain ⟨message, hmsg, rfl⟩ := membersAt_eq_ok_iff.mp hm
    exact ⟨message, hmsg, (exists_write_update_ownMembers_iff time message r).mp ⟨t, hw⟩⟩
  · rintro ⟨message, hmsg, h⟩
    obtain ⟨t, hw⟩ := (exists_write_update_ownMembers_iff time message r).mpr h
    exact ⟨t, textAt_eq_ok_iff.mpr ⟨_, membersAt_eq_ok_iff.mpr ⟨message, hmsg, rfl⟩, hw⟩⟩

theorem exists_textAt_of_textAt (h : r.textAt time = .ok t) (time' : Binary64) :
    ∃ t', r.textAt time' = .ok t' :=
  exists_textAt_iff.mpr (exists_textAt_iff.mp ⟨t, h⟩)

theorem exists_structuredText_iff (time : Binary64) :
    (∃ t, r.structuredText = .ok t) ↔ ∃ t, r.textAt time = .ok t := by
  rw [structuredText, Except.exists_bind_iff]
  constructor
  · rintro ⟨t, ht, -⟩
    exact exists_textAt_of_textAt ht time
  · rintro ⟨t, ht⟩
    obtain ⟨t', ht'⟩ := exists_textAt_of_textAt ht .nan
    obtain ⟨m, hm, hw⟩ := textAt_eq_ok_iff.mp ht'
    -- the members without the time are some of those that could be written
    have hv := JsonText.exists_write_ofOrderedMap_iff.mp ⟨t', hw⟩
    have he : ∃ t, JsonText.write (.ofOrderedMap (m.erase timeName)) = .ok t :=
      JsonText.exists_write_ofOrderedMap_iff.mpr fun e he => hv e (List.mem_of_mem_filter he)
    refine ⟨t', ht', ?_⟩
    rw [Except.exists_bind_iff]
    exact ⟨_, by rw [members, hm]; rfl, he.imp fun t hw => Except.mapError_eq_ok_iff.mpr hw⟩

theorem exists_members_of_structuredText (h : r.structuredText = .ok t) :
    ∃ m, r.members = .ok m := by
  obtain ⟨-, -, h⟩ := Except.bind_eq_ok_iff.mp h
  obtain ⟨m, hm, -⟩ := Except.bind_eq_ok_iff.mp h
  exact ⟨m, hm⟩

end Record

namespace LogPlan

open Record

theorem structuredLog_eq (records : List (Binary64 × Record)) :
    structuredLog records = (records.filterMap fun x => (x.2.textAt x.1).toOption).flatMap
      fun t => t ++ [.scalar '\n'] := by
  rw [structuredLog, List.filterMap_eq_flatMap_toList, List.flatMap_assoc]
  refine congrArg (records.flatMap ·) (funext fun x => ?_)
  cases x.2.textAt x.1 with
  | error flaw => rfl
  | ok t => exact (List.append_nil _).symm

theorem lines_structuredLog (records : List (Binary64 × Record)) :
    Text.lines (structuredLog records) =
      records.filterMap fun x => (x.2.textAt x.1).toOption := by
  rw [structuredLog_eq, Text.lines_flatMap_newline]
  intro t ht
  obtain ⟨x, -, hx⟩ := List.mem_filterMap.mp ht
  exact (isTypable_textAt (Except.toOption_eq_some_iff.mp hx)).isLineEnd

theorem length_entries {p : LogPlan} (hp : p.isStructured = true) (time : Binary64) (r : Record) :
    (p.entries r).length = (r.textAt time).toOption.toList.length := by
  have hi := exists_structuredText_iff (r := r) time
  rw [entries, if_pos hp]
  cases ht : r.textAt time with
  | error flaw =>
    cases hs : r.structuredText with
    | error flaw => rfl
    | ok t =>
      obtain ⟨t', ht'⟩ := hi.mp ⟨t, hs⟩
      exact nomatch ht.symm.trans ht'
  | ok t =>
    obtain ⟨t', ht'⟩ := hi.mpr ⟨t, ht⟩
    obtain ⟨m, hm⟩ := exists_members_of_structuredText ht'
    rw [ht', hm]
    rfl

/-- Whatever records hold, each that can be written takes one line of characters that can be
typed, and is one entry to a reader. -/
theorem isTypable_and_lines_structuredLog :
    (∀ (time : Binary64) (r : Record),
      ((∃ t, r.textAt time = .ok t) ↔ ∃ message, r.message = .ok message ∧
        (∀ e ∈ r.extras.entries, ∃ t, JsonText.write e.2 = .ok t) ∧
        ∀ e ∈ r.coreMembers message, e.1 ∉ r.extras.keys → ∃ t, JsonText.write e.2 = .ok t) ∧
      ∀ t, r.textAt time = .ok t → t.IsTypable) ∧
    ∀ records : List (Binary64 × Record),
      Text.lines (structuredLog records) =
        records.filterMap (fun x => (x.2.textAt x.1).toOption) ∧
      ((∀ x ∈ records, ∃ t, x.2.textAt x.1 = .ok t) →
        (Text.lines (structuredLog records)).length = records.length) ∧
      ∀ p : LogPlan, p.isStructured = true →
        (records.flatMap fun x => p.entries x.2).length =
          (Text.lines (structuredLog records)).length := by
  constructor
  · exact fun _ _ => ⟨exists_textAt_iff, fun _ => isTypable_textAt⟩
  · intro records
    refine ⟨lines_structuredLog records, fun h => ?_, fun p hp => ?_⟩
    · rw [lines_structuredLog, List.length_filterMap_eq_countP, List.countP_eq_length]
      intro x hx
      obtain ⟨t, ht⟩ := h x hx
      rw [ht]
      rfl
    · rw [lines_structuredLog, List.filterMap_eq_flatMap_toList, List.length_flatMap,
        List.length_flatMap]
      exact congrArg List.sum (List.map_congr_left fun x _ => length_entries hp x.1 x.2)

/-- A record with line ends and a quotation mark in all that it shows, at any depth. -/
def brokenUp : Record where
  logger := .text "fluo\u2028test"
  severity := .text "ERROR"
  template := .text "no %s\n\x22forged\x22"
  arguments := .ordered [.text "way\x0bout\x7f"]
  moduleName := .text "mod\r"
  function := .text "fn\u0085"
  line := .int 1
  incident := some ⟨"ValueError", "first\nsecond"⟩
  extras := .ofList [("a\nb", .list [.map [(.text "\r", .text "\u2029")], .bytes [10]]),
    ("half", .text [.surrogate (Fin.last _)])]

theorem brokenUp_isTypable_and_lines :
    (∃ t, brokenUp.textAt (.finite false 3 (-1)) = .ok t ∧ t.IsTypable) ∧
    (Text.lines (structuredLog
      [(.finite false 3 (-1), brokenUp), (.finite false 7 (-2), brokenUp)])).length = 2 := by
  have hs : (brokenUp.textAt (.finite false 3 (-1))).toOption.isSome = true := by decide +kernel
  obtain ⟨t, ht⟩ := Option.isSome_iff_exists.mp hs
  have ht := Except.toOption_eq_some_iff.mp ht
  obtain ⟨hc, hl⟩ := isTypable_and_lines_structuredLog
  refine ⟨⟨t, ht, (hc _ _).2 t ht⟩, (hl _).2.1 ?_⟩
  simp only [List.forall_mem_cons, List.not_mem_nil, false_implies, implies_true, and_true]
  exact ⟨⟨t, ht⟩, exists_textAt_of_textAt ht _⟩

end LogPlan

end LayeredConfig
