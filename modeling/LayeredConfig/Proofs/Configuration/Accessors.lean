import LayeredConfig.Proofs.Configuration.Run
import LayeredConfig.Proofs.Configuration.Validation
import LayeredConfig.Proofs.Store.Expansion

/-! Setters next to their getters. Both go through one check, so a pair of them is told by its key,
its check and how its getter reads. -/

namespace LayeredConfig

/-- A setter with its getter: of a setting, of the rollback time with its unit, or of any key with
a rule for numbers or for texts that are not empty, where the getter has a default of its own. -/
inductive Accessor where
  | setting (x : Setting)
  | rollbackTime (unit : TimeUnit)
  | number (rule : Rule) (key : Text) (default? : Option Value)
  | nonEmpty (key : Text) (default? : Option Value)

namespace Accessor

def key : Accessor → Text
  | setting x => x.key
  | rollbackTime _ => Setting.transactionRollbackTime.key
  | number _ key _ => key
  | nonEmpty key _ => key

def change (v : Value) : Accessor → Change
  | setting x => .set x v
  | rollbackTime unit => .setRollbackTime v unit
  | number rule key _ => .putNumber rule key v
  | nonEmpty key _ => .putNonEmpty key v

def get (s : Store) (env : Environment) : Accessor → Except Fault Value
  | setting x => s.get env x
  | rollbackTime _ => s.get env .transactionRollbackTime
  | number rule key default? => (s.getNumber rule key default?).map .int
  | nonEmpty key default? => (s.getNonEmpty env key default?).map .text

/-- What is stored for an argument: a duration in milliseconds, anything else as it is. -/
def convert (v : Value) : Accessor → Value
  | rollbackTime unit =>
    match v with
    | .int n => .int (unit.toMillis n)
    | v => v
  | _ => v

/-- The check that setter and getter make. -/
def check (v : Value) : Accessor → Except Fault Value
  | setting x => x.kind.check x.key v
  | rollbackTime _ => Kind.positiveLong.check Setting.transactionRollbackTime.key v
  | number rule key _ => (Check.number rule key v).map .int
  | nonEmpty key _ => (Check.nonEmpty key v).map .text

def Admits (v : Value) : Accessor → Prop
  | setting x => x.kind.Admits v
  | rollbackTime _ => Kind.positiveLong.Admits v
  | number rule _ _ => ∃ n, v = .int n ∧ rule.admits n = true
  | nonEmpty _ _ => Kind.nonEmptyText.Admits v

variable {a : Accessor} {s s' : Store} {env : Environment} {v w : Value} {t : Text}

theorem convert_eq_text_iff : a.convert v = .text t ↔ v = .text t := by
  cases a with
  | rollbackTime unit => cases v <;> simp [convert]
  | _ => rfl

theorem check_eq_ok_iff : a.check v = .ok w ↔ w = v ∧ a.Admits v := by
  cases a with
  | setting x => exact Kind.check_eq_ok_iff
  | rollbackTime unit =>
    show Kind.positiveLong.check _ v = .ok w ↔ w = v ∧ Kind.positiveLong.Admits v
    exact Kind.check_eq_ok_iff
  | number rule key d => exact Kind.map_check_eq_ok_iff fun _ => Check.number_eq_ok_iff
  | nonEmpty key d => exact Kind.map_check_eq_ok_iff fun _ => Check.nonEmpty_eq_ok_iff

theorem run_change (a : Accessor) (v : Value) (s : Store) :
    (a.change v).run s = s.attempt ((a.check (a.convert v)).map (s.put a.key)) := by
  have hn (rule : Rule) (key : Text) (v : Value) : s.putNumber rule key v =
      ((Check.number rule key v).map .int).map (s.put key) := by
    rw [Store.putNumber]
    cases Check.number rule key v <;> rfl
  cases a with
  | setting x => rfl
  | rollbackTime unit =>
    -- only a whole number is converted, and the check refuses what is not converted
    cases v with
    | int n => exact congrArg s.attempt (hn ..)
    | _ => rfl
  | number rule key d => exact congrArg s.attempt (hn ..)
  | nonEmpty key d =>
    simp only [change, Change.run, check, convert, Store.putNonEmpty]
    cases Check.nonEmpty key v <;> rfl

/-- A setter either leaves the store alone or stores a value of its kind. -/
theorem run_change_eq_ok_iff : (a.change v).run s = (s', .ok ()) ↔
    a.Admits (a.convert v) ∧ s' = s.put a.key (a.convert v) := by
  rw [run_change]
  cases hc : a.check (a.convert v) with
  | error fault =>
    have hh : ¬ a.Admits (a.convert v) := fun ha =>
      nomatch hc.symm.trans (check_eq_ok_iff.mpr ⟨rfl, ha⟩)
    simp [Store.attempt, Except.map, hh]
  | ok w =>
    obtain ⟨rfl, ha⟩ := check_eq_ok_iff.mp hc
    simp [Store.attempt, Except.map, ha, eq_comm]

theorem Admits.ne_null (h : a.Admits v) : v ≠ .null := by
  cases a with
  | setting x => exact Kind.Admits.ne_null h
  | rollbackTime unit | number rule key d =>
    obtain ⟨n, rfl, -⟩ := h
    exact nofun
  | nonEmpty key d =>
    obtain ⟨t, rfl, -⟩ := h
    exact nofun

/-! ### Reading what is stored -/

theorem admits_of_get (h : a.get s env = .ok v) : a.Admits v := by
  cases a with
  | setting x => exact (Store.get_eq_ok_iff.mp h).2
  | rollbackTime unit => exact (Store.get_eq_ok_iff.mp h).2
  | number rule key d =>
    obtain ⟨n, hn, rfl⟩ := Except.map_eq_ok_iff.mp h
    obtain ⟨w, -, hw⟩ := Except.bind_eq_ok_iff.mp hn
    exact ⟨n, rfl, (Check.number_eq_ok_iff.mp hw).2⟩
  | nonEmpty key d =>
    obtain ⟨t, ht, rfl⟩ := Except.map_eq_ok_iff.mp h
    obtain ⟨w, -, hw⟩ := Except.bind_eq_ok_iff.mp ht
    exact ⟨t, rfl, (Check.nonEmpty_eq_ok_iff.mp hw).2⟩

theorem get_of_value (hv : s.value a.key = v) (ha : a.Admits v) (ht : ∀ t, v ≠ .text t) :
    a.get s env = .ok v := by
  have hr (d? : Option Value) : s.raw a.key d? = .ok v := by
    rw [Store.raw_of_ne_null (hv ▸ ha.ne_null), hv]
  have hx {x : Setting} (hr : s.raw x.key x.default? = .ok v) (ha : x.kind.Admits v) :
      s.get env x = .ok v := by
    refine Store.get_eq_ok_iff.mpr ⟨Store.read_of_raw hr ha ?_, ha⟩
    cases hk : x.kind.isText with
    | false => rfl
    | true =>
      obtain ⟨t, rfl⟩ := ha.exists_text hk
      exact absurd rfl (ht t)
  cases a with
  | setting x => exact hx (hr _) ha
  | rollbackTime unit => exact hx (hr _) ha
  | number rule key d =>
    obtain ⟨n, rfl, hn⟩ := ha
    have hi : s.getInteger key d = .ok (some n) := Store.getInteger_of_raw (hr d)
    rw [get, Store.getNumber, hi]
    exact congrArg (Except.map Value.int) (Check.number_eq_ok_iff.mpr ⟨rfl, hn⟩)
  | nonEmpty key d =>
    obtain ⟨t, rfl, -⟩ := ha
    exact absurd rfl (ht t)

/-- A stored text is read with its references replaced, and then checked. -/
theorem get_of_text (hv : s.value a.key = .text t) (ha : a.Admits (.text t)) :
    a.get s env = s.interpolate env t >>= fun u => a.check (.text u) := by
  have hr (d? : Option Value) : s.getTextValue env a.key d? = (s.interpolate env t).map .text := by
    refine Store.getTextValue_of_raw ?_
    rw [Store.raw_of_ne_null (hv ▸ ha.ne_null), hv]
  cases a with
  | setting x =>
    have hx : s.getTextValue env x.key x.default? = _ := hr _
    rw [get, Store.get, Store.read_of_isText (Kind.Admits.isText ha), hx]
    cases s.interpolate env t <;> rfl
  | rollbackTime unit | number rule key d =>
    obtain ⟨n, hn, -⟩ := ha
    cases hn
  | nonEmpty key d =>
    have hx : s.getTextValue env key d = _ := hr _
    rw [get, Store.getNonEmpty, hx]
    cases s.interpolate env t <;> rfl

/-- Where nothing in a stored text resolves, the text is read as it is stored, unless the
environment cannot be asked for one of its names. -/
theorem get_eq_text_iff (hv : s.value a.key = .text t) (ha : a.Admits (.text t))
    (hn : ∀ name, .reference name ∈ Piece.ofText t → ¬ s.Resolves env name) :
    a.get s env = .ok (.text t) ↔
      ∀ named, .reference (environmentMark ++ named) ∈ Piece.ofText t → named.IsEncodable := by
  rw [get_of_text hv ha, Except.bind_eq_ok_iff]
  constructor
  · rintro ⟨u, hu, -⟩
    exact ((Store.interpolate_of_not_resolves hn).mp hu).2
  · intro he
    exact ⟨t, (Store.interpolate_of_not_resolves hn).mpr ⟨rfl, he⟩,
      check_eq_ok_iff.mpr ⟨rfl, ha⟩⟩

/-- A setter that fails changes nothing. One that does not writes one entry, from which the getter
reads the stored value again, where a text is read with its references replaced. Whatever is held,
a getter gives only what its setter would store. -/
theorem run_change_get (a : Accessor) (s : Store) (v : Value) :
    (∀ s' fault, (a.change v).run s = (s', .error fault) → s' = s) ∧
    (∀ s', (a.change v).run s = (s', .ok ()) →
      s' = { s with written := s.written.insert a.key (a.convert v) } ∧
      ∀ env, ((∀ t, v ≠ .text t) → a.get s' env = .ok (a.convert v)) ∧
        ∀ t, v = .text t →
          a.get s' env = (s'.interpolate env t >>= fun u => a.check (.text u)) ∧
          ((∀ name, .reference name ∈ Piece.ofText t → ¬ s'.Resolves env name) →
            (a.get s' env = .ok v ↔ ∀ named,
              .reference (environmentMark ++ named) ∈ Piece.ofText t → named.IsEncodable))) ∧
    ∀ env w, a.get s env = .ok w → a.Admits w := by
  refine ⟨?_, ?_, fun env w h => admits_of_get h⟩
  · intro s' fault h
    rw [run_change] at h
    cases hc : a.check (a.convert v) with
    | error fault =>
      rw [hc] at h
      exact (Prod.mk.inj h).1.symm
    | ok w =>
      rw [hc] at h
      exact nomatch (Prod.mk.inj h).2
  · intro s' h
    obtain ⟨ha, rfl⟩ := run_change_eq_ok_iff.mp h
    have hn := ha.ne_null
    refine ⟨by rw [Store.put, if_neg (by simp [Store.isNull_of_ne_null hn])], fun env => ?_⟩
    have hv : (s.put a.key (a.convert v)).value a.key = a.convert v := by
      rw [Store.value_put, if_pos rfl]
    constructor
    · intro ht
      exact get_of_value hv ha fun t hc => ht t (convert_eq_text_iff.mp hc)
    · rintro t rfl
      have hc : a.convert (.text t) = .text t := convert_eq_text_iff.mpr rfl
      rw [hc] at ha hv ⊢
      exact ⟨get_of_text hv ha, get_eq_text_iff hv ha⟩

/-- The user refers to a key that nothing is held under. -/
theorem user_kept_as_written :
    let s' := (Store.empty true).put Setting.accumuloUser.key
      (.text (Piece.reference "nowhere").written)
    ((setting .accumuloUser).change (.text (Piece.reference "nowhere").written)).run
        (.empty true) = (s', .ok ()) ∧
      (setting .accumuloUser).get s' [] = .ok (.text (Piece.reference "nowhere").written) := by
  have ho : Piece.ofText (Piece.reference "nowhere").written = [.reference "nowhere"] :=
    Piece.ofText_reference (by decide)
  have hm : ¬ environmentMark <+: ("nowhere" : Text) := by decide
  intro s'
  have hz : s'.value "nowhere" = .null := by
    rw [Store.value_put, if_neg (by decide)]
    rfl
  have hs := run_change_eq_ok_iff (a := setting .accumuloUser) (s := .empty true).mpr
    ⟨⟨(Piece.reference "nowhere").written, rfl, by decide⟩, rfl⟩
  obtain ⟨-, hg⟩ := (run_change_get (setting .accumuloUser) (.empty true) _).2.1 s' hs
  refine ⟨hs, (((hg []).2 _ rfl).2 ?_).mpr ?_⟩
  · simpa only [ho, List.mem_singleton, Piece.reference.injEq, forall_eq] using
      Store.not_resolves_of_null hm hz []
  · rw [ho]
    intro named hn
    exact absurd ⟨named, Piece.reference.inj (List.mem_singleton.mp hn)⟩ hm

/-- A name of the environment with a surrogate that stands for no byte. -/
def unaskable : Text := environmentMark ++ [.surrogate 0]

theorem ofText_unaskable :
    Piece.ofText (Piece.reference unaskable).written = [.reference unaskable] :=
  Piece.ofText_reference (by decide)

theorem not_resolves_unaskable (s : Store) (env : Environment) : ¬ s.Resolves env unaskable := by
  rintro (⟨x, named, hn, hx⟩ | ⟨hm, -⟩)
  · obtain rfl := List.append_cancel_left hn
    exact nomatch hx
  · exact hm (List.prefix_append ..)

/-- The user is stored and nothing in it resolves, but it cannot be read. -/
theorem user_unaskable : ∃ s',
    ((setting .accumuloUser).change (.text (Piece.reference unaskable).written)).run
        (.empty true) = (s', .ok ()) ∧
      (∀ name, .reference name ∈ Piece.ofText (Piece.reference unaskable).written →
        ¬ s'.Resolves [] name) ∧
      (setting .accumuloUser).get s' [] ≠ .ok (.text (Piece.reference unaskable).written) := by
  have ha : (setting .accumuloUser).Admits (.text (Piece.reference unaskable).written) :=
    ⟨_, rfl, by decide⟩
  have hn (s : Store) : ∀ name, .reference name ∈ Piece.ofText (Piece.reference unaskable).written →
      ¬ s.Resolves [] name := by
    simpa [ofText_unaskable] using not_resolves_unaskable s []
  refine ⟨_, run_change_eq_ok_iff.mpr ⟨ha, rfl⟩, hn _, ?_⟩
  intro h
  have hv := Store.value_put (.empty true) (setting .accumuloUser).key
    (.text (Piece.reference unaskable).written) (setting .accumuloUser).key
  rw [if_pos rfl] at hv
  have he := (get_eq_text_iff hv ha (hn _)).mp h [.surrogate 0]
  rw [ofText_unaskable] at he
  exact nomatch he (List.mem_singleton.mpr rfl) _ (List.mem_singleton.mpr rfl)

end Accessor

end LayeredConfig
