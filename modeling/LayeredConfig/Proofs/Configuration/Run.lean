import LayeredConfig.Configuration
import LayeredConfig.Loader
import LayeredConfig.Proofs.Traversal

/-! How stores come about and change. A store is made in one of four ways and then goes through a
sequence of changes; a change that fails leaves it as it was, except that new observers may be
written up to the first that is none. -/

namespace LayeredConfig

inductive Change where
  | add (source : Source)
  | put (key : Text) (v : Value)
  | erase (key : Text)
  | clear
  | putDefault (key : Text) (v : Value)
  | putDefaults
  | set (x : Setting) (v : Value)
  | setRollbackTime (duration : Value) (unit : TimeUnit)
  | setMetrics (stream : ByteStream)
  | putNumber (rule : Rule) (key : Text) (v : Value)
  | putNonEmpty (key : Text) (v : Value)
  | replaceObservers (offer : Store.Offer)

namespace Store

def attempt (s : Store) : Except Fault Store → Store × Except Fault Unit
  | .ok s' => (s', .ok ())
  | .error fault => (s, .error fault)

end Store

namespace Change

def run (c : Change) (s : Store) : Store × Except Fault Unit :=
  match c with
  | add source => s.attempt (s.add source)
  | put key v => (s.put key v, .ok ())
  | erase key => (s.erase key, .ok ())
  | clear => (s.clear, .ok ())
  | putDefault key v => (s.putDefault key v, .ok ())
  | putDefaults => (s.putDefaults, .ok ())
  | set x v => s.attempt (s.set x v)
  | setRollbackTime duration unit => s.attempt (s.setRollbackTime duration unit)
  | setMetrics stream => s.attempt (s.setMetrics stream)
  | putNumber rule key v => s.attempt (s.putNumber rule key v)
  | putNonEmpty key v => s.attempt (s.putNonEmpty key v)
  | replaceObservers offer => s.replaceObservers offer

def apply (c : Change) (s : Store) : Store := (c.run s).1

end Change

namespace Store

def after (s : Store) (cs : List Change) : Store := cs.foldl (fun s c => c.apply s) s

@[simp] theorem after_nil (s : Store) : s.after [] = s := rfl

@[simp] theorem after_cons (s : Store) (c : Change) (cs : List Change) :
    s.after (c :: cs) = (c.apply s).after cs := rfl

end Store

/-- The ways in which a store is made: from any sources, or strict and from at most one source, as
a copy of another strict store, or from the file at a path. -/
inductive Origin where
  | composite (sources : List Source)
  | configuration (source? : Option Source)
  | copy (s : Store)
  | file (files : Files) (path : Text)

def Origin.make : Origin → Except Fault Store
  | composite sources => Store.ofSources false sources
  | configuration source? => Store.ofSources true source?.toList
  | copy s => .ok s.flattened
  | file files path => (Loader.loadStore files path).result

/-! ### What changes do -/

namespace Store

variable {s s' : Store}

theorem attempt_fst_cases (s : Store) (r : Except Fault Store) :
    (s.attempt r).1 = s ∨ r = .ok (s.attempt r).1 := by
  cases r with
  | ok s' => exact .inr rfl
  | error fault => exact .inl rfl

theorem add_eq_ok_iff {source : Source} :
    s.add source = .ok s' ↔ ∃ l, source.layer = .ok l ∧ s.addLayer l = s' :=
  Except.map_eq_ok_iff

/-! A setter that succeeds writes one value. -/

theorem exists_put_of_set {x : Setting} {v : Value} (h : s.set x v = .ok s') :
    ∃ w, x.kind.check x.key v = .ok w ∧ s' = s.put x.key w := by
  obtain ⟨w, hw, he⟩ := Except.bind_eq_ok_iff.mp h
  exact ⟨w, hw, (Except.ok.inj he).symm⟩

theorem exists_put_of_putNumber {rule : Rule} {key : Text} {v : Value}
    (h : s.putNumber rule key v = .ok s') :
    ∃ n, Check.number rule key v = .ok n ∧ s' = s.put key (.int n) := by
  obtain ⟨n, hn, he⟩ := Except.bind_eq_ok_iff.mp h
  exact ⟨n, hn, (Except.ok.inj he).symm⟩

theorem exists_put_of_putNonEmpty {key : Text} {v : Value} (h : s.putNonEmpty key v = .ok s') :
    ∃ t, Check.nonEmpty key v = .ok t ∧ s' = s.put key (.text t) := by
  obtain ⟨t, ht, he⟩ := Except.bind_eq_ok_iff.mp h
  exact ⟨t, ht, (Except.ok.inj he).symm⟩

theorem exists_put_of_setRollbackTime {duration : Value} {unit : TimeUnit}
    (h : s.setRollbackTime duration unit = .ok s') :
    ∃ n, s' = s.put Setting.transactionRollbackTime.key (.int n) := by
  obtain ⟨d, -, hd⟩ := Except.bind_eq_ok_iff.mp h
  obtain ⟨n, -, he⟩ := exists_put_of_putNumber hd
  exact ⟨n, he⟩

theorem exists_put_of_setMetrics {stream : ByteStream} (h : s.setMetrics stream = .ok s') :
    ∃ bs, stream.read = .ok bs ∧
      s' = s.put Setting.metricsYamlBase64.key (.text (Base64.encode bs)) := by
  obtain ⟨bs, hb, he⟩ := Except.bind_eq_ok_iff.mp h
  exact ⟨bs, hb, (Except.ok.inj he).symm⟩

end Store

end LayeredConfig
