import LayeredConfig.Field
import LayeredConfig.Text.Blank

/-! Observers: a class name with ordered parameters, and the text in which a property holds
one, `className(,key=value)*`. -/

namespace LayeredConfig

namespace Observer

def comma : CodePoint := .scalar ','
def equals : CodePoint := .scalar '='

/-- A class name is not empty and has no comma. -/
def isClassName (t : Text) : Bool := !t.isEmpty && !t.contains comma

/-- A key or value of a parameter is not empty and has neither a comma nor an equals sign. -/
def isPart (t : Text) : Bool := !t.isEmpty && !t.contains comma && !t.contains equals

/-- Text that an observer may hold at all. -/
def IsValid (className : Text) (parameters : OrderedMap Text) : Prop :=
  isClassName className = true ∧
    ∀ e ∈ parameters.entries, (isPart e.1 && isPart e.2) = true

instance (className : Text) (parameters : OrderedMap Text) :
    Decidable (IsValid className parameters) := inferInstanceAs (Decidable (_ ∧ _))

end Observer

structure Observer where
  className : Text
  parameters : OrderedMap Text
  isValid : Observer.IsValid className parameters

namespace Observer

def classNamePath : List Value := [.text "class_name"]
def parametersPath : List Value := [.text "parameters"]

def checkClassName (t : Text) : Field.Reading Text :=
  if t.isEmpty then
    .error [Field.refused classNamePath "Observer class name cannot be empty"]
  else if t.contains comma then
    .error [Field.refused classNamePath
      (("Observer class name cannot contain ',': " : Text) ++ t.quoted)]
  else .ok t

def parameterFlaw? (e : Text × Text) : Option Text :=
  let shown := e.1.quoted ++ .scalar '=' :: e.2.quoted
  if e.1.isEmpty || e.2.isEmpty then
    some (("Observer parameter has empty key or value: " : Text) ++ shown)
  else if e.1.contains comma || e.2.contains comma || e.1.contains equals
      || e.2.contains equals then
    some (("Observer parameter cannot contain ',' or '=': " : Text) ++ shown)
  else none

/-- Of several parameters that are refused the first is named. -/
def checkParameters (m : OrderedMap Text) : Field.Reading (OrderedMap Text) :=
  match m.entries.findSome? parameterFlaw? with
  | some reason => .error [Field.refused parametersPath reason]
  | none => .ok m

def classNameOf : Option Value → Field.Reading Text
  | none => .error [Field.missing classNamePath]
  | some v => (Field.text classNamePath v).bind checkClassName

/-- Parameters that are not given are none. -/
def parametersOf : Option Value → Field.Reading (OrderedMap Text)
  | none => .ok .empty
  | some v => (Field.textMap parametersPath v).bind checkParameters

theorem isClassName_of_check {t u : Text} (h : checkClassName t = .ok u) :
    u = t ∧ isClassName u = true := by
  unfold checkClassName at h
  split at h
  · exact nomatch h
  · split at h
    · exact nomatch h
    · cases h
      simp_all [isClassName]

theorem isPart_of_parameterFlaw? {e : Text × Text} (h : parameterFlaw? e = none) :
    isPart e.1 = true ∧ isPart e.2 = true := by
  unfold parameterFlaw? at h
  simp only at h
  split at h
  · exact nomatch h
  · split at h
    · exact nomatch h
    · simp_all [isPart]

theorem classNameOf_valid {v : Option Value} {t : Text} (h : classNameOf v = .ok t) :
    isClassName t = true := by
  cases v with
  | none => exact nomatch h
  | some v =>
    rw [classNameOf] at h
    cases ht : Field.text classNamePath v with
    | error f => rw [ht] at h; exact nomatch h
    | ok u =>
      rw [ht] at h
      exact (isClassName_of_check h).2

theorem checkParameters_eq_ok {m n : OrderedMap Text} (h : checkParameters m = .ok n) :
    n = m ∧ ∀ e ∈ m.entries, parameterFlaw? e = none := by
  unfold checkParameters at h
  cases hf : m.entries.findSome? parameterFlaw? with
  | some reason => simp [hf] at h
  | none =>
    rw [hf] at h
    exact ⟨(Except.ok.inj h).symm, List.findSome?_eq_none_iff.mp hf⟩

theorem parametersOf_valid {v : Option Value} {m : OrderedMap Text} (h : parametersOf v = .ok m) :
    ∀ e ∈ m.entries, (isPart e.1 && isPart e.2) = true := by
  cases v with
  | none =>
    cases h
    simp [OrderedMap.empty]
  | some v =>
    rw [parametersOf] at h
    cases hm : Field.textMap parametersPath v with
    | error f => simp [hm, Except.bind] at h
    | ok n =>
      rw [hm] at h
      obtain ⟨rfl, hn⟩ := checkParameters_eq_ok h
      intro e he
      have hp := isPart_of_parameterFlaw? (hn e he)
      simp [hp.1, hp.2]

def ofFields (className parameters : Option Value) : Except Fault Observer :=
  match h : Field.both (classNameOf className) (parametersOf parameters) with
  | .error flaws => .error (.flawed flaws)
  | .ok (name, params) =>
    have hb := Field.both_eq_ok h
    .ok ⟨name, params, classNameOf_valid hb.1, parametersOf_valid hb.2⟩

def encodeParameters (entries : List (Text × Text)) : Text :=
  entries.flatMap fun e => comma :: e.1 ++ equals :: e.2

def encode (o : Observer) : Text := o.className ++ encodeParameters o.parameters.entries

/-- Reads one parameter of the property `key`. -/
def decodeParameter (key field : Text) : Except Fault (Text × Text) :=
  match field.fields equals with
  | [k, v] => if k.isEmpty || v.isEmpty then .error (.observerPart key field) else .ok (k, v)
  | _ => .error (.observerField key field)

/-- Reads the value of the property `key`. Blanks around the whole are dropped; a repeated
parameter keeps its first place and its last value. -/
def decode (key value : Text) : Except Fault Observer :=
  match value.trim with
  | [] => .error (.observerEmpty key)
  | trimmed =>
    match Text.fields comma trimmed with
    | [] => .error (.observerEmpty key)
    | className :: fields =>
      if className.isEmpty then .error (.observerUnnamed key trimmed)
      else do
        let parameters ← fields.mapM (decodeParameter key)
        ofFields (some (.text className))
          (some (Value.ofOrderedMap ((OrderedMap.ofList parameters).map Value.text)))

/-- The observer as it is listed: its parameters in brackets, if it has any. -/
def listing (o : Observer) : Text :=
  if o.parameters.isEmpty then o.className
  else o.className ++ (" [" : Text) ++
    Text.join ", " (o.parameters.entries.map fun e => e.1 ++ equals :: e.2) ++ [.scalar ']']

end Observer

end LayeredConfig
