import LayeredConfig.Command.Outcome
import LayeredConfig.Proofs.Configuration.Accessors
import LayeredConfig.Proofs.Configuration.Failures
import LayeredConfig.Proofs.Text.Terminal

/-! How commands end on the configuration of a property file. Those that catch errors of this
library end with no other fault, unless a variable of the environment cannot be asked for or a text
that is read cannot be printed. -/

namespace LayeredConfig

/-! ### Outcomes -/

namespace Outcome

/-- Whatever fault there is, is of this library and is told to the user. -/
def IsTold (o : Outcome) : Prop := ∀ fault, o.fault = some fault → fault.IsKnown

variable {printer : Printer} {plan : LogPlan} {work : Logged Printed}

theorem isTold_ofPrinted_iff {notices : Text} {journal : Option LogPlan.Journal} {p : Printed} :
    (ofPrinted printer notices journal p).IsTold ↔
      (p.refusal = none → ∀ t ∈ p.texts, printer.CanPrint t) := by
  rw [ofPrinted, ← Printer.print_eq_none_iff]
  cases p.refusal with
  | some reason => simp [IsTold]
  | none =>
    obtain ⟨output, obstacle?⟩ := printer.print p.texts
    cases obstacle? with
    | none => simp [IsTold]
    | some obstacle =>
      have hn : ¬ (Fault.unwritable obstacle).IsKnown := Bool.false_ne_true
      simp [IsTold, failed, hn]

theorem isTold_ofWork_iff : (ofWork printer plan work).IsTold ↔ EndsKnown work.result ∧
    ∀ p, work.result = .ok p → p.refusal = none → ∀ t ∈ p.texts, printer.CanPrint t := by
  rw [ofWork]
  cases work.result with
  | error fault => simp [IsTold, failed, EndsKnown]
  | ok p => simp [isTold_ofPrinted_iff, EndsKnown]

/-- A command line that asks for a command has the outcome of the command's work. -/
theorem ofLineOn_of_run {files : Files} {env : Environment} {line rest : List Text}
    {command : Command} (ho : Command.readOpening files line = .group plan rest)
    (hp : plan.prepare files = .ok ()) (hg : Command.readGroup files rest = .run command) :
    ofLineOn printer files env line = ofWork printer plan (command.run files env) := by
  rw [ofLineOn, ho]
  simp only [hp, hg]

end Outcome

/-! ### Actions -/

/-- The commands that tell errors of this library to the user. -/
def Command.Action.IsGuarded : Action → Prop
  | get _ | validate | observers => True
  | _ => False

theorem Observer.canPrint_listing {printer : Printer} {key t : Text} {o : Observer}
    (h : decode key t = .ok o) (ht : printer.CanPrint t) : printer.CanPrint o.listing := by
  obtain ⟨hn, he⟩ := subset_of_decode h
  have hc := ht.of_subset hn
  rw [listing]
  split
  · exact hc
  · refine Printer.canPrint_append_iff.mpr ⟨Printer.canPrint_append_iff.mpr
      ⟨Printer.canPrint_append_iff.mpr ⟨hc, printer.canPrint_ofString _⟩, ?_⟩,
      printer.canPrint_ofString "]"⟩
    intro c hc
    rcases Text.mem_join hc with hc | ⟨part, hp, hc⟩
    · exact printer.canPrint_ofString ", " c hc
    · obtain ⟨e, hm, rfl⟩ := List.mem_map.mp hp
      obtain ⟨hk, hv⟩ := he e hm
      rcases List.mem_append.mp hc with hc | hc
      · exact ht c (hk hc)
      · rcases List.mem_cons.mp hc with rfl | hc
        · exact printer.takes_of_not_isSurrogate rfl
        · exact ht c (hv hc)

namespace Store

variable {s : Store} {printer : Printer} {env : Environment} {action : Command.Action}

/-- Whether every text that is read can be printed. -/
def IsPrintable (s : Store) (printer : Printer) (env : Environment) : Prop :=
  ∀ key t, s.getText env key none = .ok (some t) → printer.CanPrint t

theorem run_get (key : Text) : (Command.Action.run (.get key) s env).result =
    (s.getText env key none).map fun t? => .line (t?.getD []) := by
  change (s.getText env key none >>= fun t? => .ok (Printed.line (t?.getD []))) = _
  cases s.getText env key none <;> rfl

theorem IsTextual.endsKnown_run (h : s.IsTextual) (he : s.IsExpandable) (env : Environment)
    (ha : action.IsGuarded) : EndsKnown (action.run s env).result := by
  cases action with
  | get key =>
    rw [run_get, EndsKnown.map_iff]
    exact h.endsKnown_getText he env nofun
  | validate => exact (h.endsKnown_validate he env).bind fun _ _ => .ok _
  | observers =>
    refine (h.endsKnown_observers he env).bind fun os _ => ?_
    cases os with
    | nil => exact .ok _
    | cons o os => exact .ok _
  | _ => exact False.elim ha

theorem IsPrintable.canPrint_observers (h : s.IsPrintable printer env) {os : List Observer}
    (ho : s.observers env = .ok os) : ∀ o ∈ os, printer.CanPrint o.listing := by
  intro o hm
  obtain ⟨key, -, hk⟩ := exists_of_mem_mapM ho hm
  obtain ⟨t?, ht, hd⟩ := Except.bind_eq_ok_iff.mp hk
  cases t? with
  | none => cases hd
  | some t => exact Observer.canPrint_listing hd (h key t ht)

theorem IsPrintable.canPrint_run (h : s.IsPrintable printer env) (ha : action.IsGuarded)
    {p : Printed} (hp : (action.run s env).result = .ok p) :
    ∀ t ∈ p.texts, printer.CanPrint t := by
  have hend (t : Text) (ht : printer.CanPrint t) : printer.CanPrint (t ++ [.scalar '\n']) :=
    Printer.canPrint_append_iff.mpr ⟨ht, printer.canPrint_ofString "\n"⟩
  cases action with
  | get key =>
    rw [run_get] at hp
    obtain ⟨t?, ht, rfl⟩ := Except.map_eq_ok_iff.mp hp
    refine List.forall_mem_singleton.mpr (hend _ ?_)
    cases t? with
    | none => exact printer.canPrint_ofString ""
    | some t => exact h key t ht
  | validate =>
    obtain ⟨-, -, hp⟩ := Except.bind_eq_ok_iff.mp hp
    cases hp
    exact List.forall_mem_singleton.mpr (hend _ (printer.canPrint_ofString "VALID"))
  | observers =>
    obtain ⟨os, ho, hp⟩ := Except.bind_eq_ok_iff.mp hp
    cases os with
    | nil =>
      cases hp
      exact List.forall_mem_singleton.mpr
        (hend _ (printer.canPrint_ofString "No observers configured"))
    | cons o os =>
      cases hp
      exact List.forall_mem_map.mpr fun o hm => hend _ (h.canPrint_observers ho o hm)
  | _ => exact False.elim ha

/-- The commands that catch errors of this library end with no other, be it that they are run on the
configuration or by a command line that names a file with it. -/
structure EndsTold (s : Store) (printer : Printer) (env : Environment) : Prop where
  action (action : Command.Action) (ha : action.IsGuarded) (plan : LogPlan) :
    (Outcome.ofWork printer plan (action.run s env)).IsTold
  line (action : Command.Action) (ha : action.IsGuarded) (plan : LogPlan) (files : Files)
    (line rest : List Text) (path : Text)
    (ho : Command.readOpening files line = .group plan rest) (hp : plan.prepare files = .ok ())
    (hg : Command.readGroup files rest = .run ⟨action, some path⟩)
    (hl : (Loader.loadStore files path).result = .ok s) :
    (Outcome.ofLineOn printer files env line).IsTold

theorem EndsTold.getText (h : s.EndsTold printer env) (key : Text) :
    EndsKnown (s.getText env key none) ∧
      ∀ t, s.getText env key none = .ok (some t) → printer.CanPrint t := by
  have hw := h.action (.get key) trivial ⟨.warning, none, false⟩
  rw [Outcome.isTold_ofWork_iff, run_get, EndsKnown.map_iff] at hw
  refine ⟨hw.1, fun t ht => ?_⟩
  have hl := hw.2 (.line t) (by rw [ht]; rfl) rfl (t ++ [.scalar '\n'])
    (List.mem_singleton.mpr rfl)
  exact (Printer.canPrint_append_iff.mp hl).1

theorem IsTextual.endsTold_iff (h : s.IsTextual) :
    s.EndsTold printer env ↔ s.IsExpandable ∧ s.IsPrintable printer env := by
  constructor
  · exact fun ht => ⟨isExpandable_of_endsKnown fun key _ => (ht.getText key).1,
      fun key => (ht.getText key).2⟩
  · rintro ⟨he, hp⟩
    have hw (action : Command.Action) (ha : action.IsGuarded) (plan : LogPlan)
        (work : Logged Printed) (hr : work.result = (action.run s env).result) :
        (Outcome.ofWork printer plan work).IsTold := by
      rw [Outcome.isTold_ofWork_iff, hr]
      exact ⟨h.endsKnown_run he env ha, fun p hr _ => hp.canPrint_run ha hr⟩
    refine ⟨fun action ha plan => hw action ha plan _ rfl, ?_⟩
    intro action ha plan files line rest path ho hplan hg hl
    rw [Outcome.ofLineOn_of_run ho hplan hg]
    have hc : (⟨action, some path⟩ : Command).run files env =
        Loader.loadStore files path >>= fun s => action.run s env := rfl
    refine hw action ha plan _ ?_
    rw [hc, Logged.bind_ok hl]

/-- What a property file says is read without foreign errors exactly if every variable that it
leads to can be asked for. The commands end without them exactly if what is read can be printed
too. -/
theorem exists_ofProperties_failsKnown_iff {t : Text} {m : OrderedMap Text}
    (h : Properties.read t = .ok m) :
    ∃ s, ofProperties t = .ok s ∧ ∀ env, (s.FailsKnown env ↔ s.IsExpandable) ∧
      ∀ printer, s.EndsTold printer env ↔ s.IsExpandable ∧ s.IsPrintable printer env :=
  ⟨_, ofProperties_of_read h, fun _ =>
    ⟨(isTextual_of_texts m).failsKnown_iff, fun _ => (isTextual_of_texts m).endsTold_iff⟩⟩

/-- One property, which asks for a variable whose name cannot be asked for. -/
def unaskableProperties : Text := "k=$\x7benv:\\ud800\x7d"

theorem read_unaskableProperties : Properties.read unaskableProperties =
    .ok (.ofList [("k", (Piece.reference Accessor.unaskable).written)]) := rfl

theorem unaskableProperties_failsKnown : ∃ m, Properties.read unaskableProperties = .ok m ∧
    ∃ s, ofProperties unaskableProperties = .ok s ∧ ∀ env, (s.FailsKnown env ↔ s.IsExpandable) ∧
      ∀ printer, s.EndsTold printer env ↔ s.IsExpandable ∧ s.IsPrintable printer env :=
  ⟨_, read_unaskableProperties, exists_ofProperties_failsKnown_iff read_unaskableProperties⟩

theorem getText_unaskableProperties : ∃ s place, ofProperties unaskableProperties = .ok s ∧
    s.contains "k" = true ∧ s.getText [] "k" none = .error (.unwritable place) ∧
    ¬ (Fault.unwritable place).IsKnown ∧ ∀ printer, ¬ s.EndsTold printer [] := by
  let t : Text := (Piece.reference Accessor.unaskable).written
  let s := (empty true).addLayer ((OrderedMap.ofList [(("k" : Text), t)]).map Value.text)
  have hv : s.value "k" = .text t := rfl
  have hg : s.getText [] "k" none = .error (.unwritable ⟨.surrogate 0, 0, 0⟩) := by
    rw [getText_of_text hv, interpolate, expansionDepth, expand, Accessor.ofText_unaskable]
    rfl
  have hn : ¬ (Fault.unwritable ⟨.surrogate 0, 0, 0⟩).IsKnown := Bool.false_ne_true
  exact ⟨s, _, ofProperties_of_read read_unaskableProperties, rfl, hg, hn,
    fun printer h => hn ((h.getText "k").1 _ hg)⟩

end Store

end LayeredConfig
