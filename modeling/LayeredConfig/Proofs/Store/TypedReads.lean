import LayeredConfig.Proofs.Store.Expansion
import LayeredConfig.Proofs.Store.Reads

/-! Numbers and truth values as they are read, beside the text that is read for the same key. Each
value converts as its own text does. But references are replaced only where a text is read, so a
value with a reference in it is neither a number nor a truth value, whatever the reference stands
for. -/

namespace LayeredConfig

/-! ### Conversions by the text of a value -/

theorem truthOfWord?_eq_some_iff {word : Text} {b : Bool} :
    truthOfWord? word = some b ↔ word ∈ if b then trueWords else falseWords := by
  have hd : ∀ w ∈ falseWords, w ∉ trueWords := by decide
  rw [truthOfWord?]
  by_cases ht : word ∈ trueWords
  · have hf : word ∉ falseWords := fun hf => hd word hf ht
    cases b <;> simp [ht, hf]
  · by_cases hf : word ∈ falseWords
    · cases b <;> simp [ht, hf]
    · cases b <;> simp [ht, hf]

/-- The mark of a reference is in no number and in no word for a truth value. -/
theorem Numeral.toInt?_of_dollar {t : Text} (h : .scalar '$' ∈ t) : toInt? t = none := by
  cases hn : toInt? t with
  | none => rfl
  | some n => exact absurd (forall_mem_of_toInt? hn _ h) (by decide)

theorem truthOfWord?_of_dollar {t : Text} (h : .scalar '$' ∈ t) :
    truthOfWord? t.trim.lower = none := by
  have hw : ∀ w ∈ trueWords ++ falseWords, .scalar '$' ∉ w := by decide
  have hm : .scalar '$' ∈ t.trim.lower :=
    List.mem_map.mpr ⟨_, Text.mem_trim h (by decide), by decide⟩
  cases hb : truthOfWord? t.trim.lower with
  | none => rfl
  | some b =>
    have hh := truthOfWord?_eq_some_iff.mp hb
    refine absurd hm (hw _ (List.mem_append.mpr ?_))
    cases b with
    | true => exact .inl hh
    | false => exact .inr hh

namespace Value

variable {v : Value} {t : Text}

theorem plain?_of_settingText? (hb : ∀ b, v ≠ .bool b) (h : v.settingText? = some t) :
    v.plain? = some t := by
  cases v with
  | bool b => exact absurd rfl (hb b)
  | _ => exact h

theorem toInteger_of_settingText? (hb : ∀ b, v ≠ .bool b) (h : v.settingText? = some t)
    (key : Text) :
    v.toInteger key = (Numeral.toInt? t).elim (.error (.notInteger key v)) .ok := by
  have hp := plain?_of_settingText? hb h
  unfold toInteger
  split
  · exact absurd rfl (hb _)
  · rename_i n
    obtain ⟨hn, rfl⟩ := Numeral.ofInt?_eq_some_iff.mp hp
    rw [Numeral.toInt?_ofInt hn]
    rfl
  · rw [hp, Option.bind_some]
    cases Numeral.toInt? t <;> rfl

theorem toTruth_of_settingText? (h : v.settingText? = some t) (key : Text) :
    v.toTruth key = (truthOfWord? t.trim.lower).elim (.error (.notTruth key v)) .ok := by
  by_cases hb : ∃ b, v = .bool b
  · obtain ⟨b, rfl⟩ := hb
    cases h
    cases b <;> rfl
  · rw [not_exists] at hb
    exact toTruth_of_plain? hb (plain?_of_settingText? hb h) key

end Value

namespace Store

variable {s : Store} {env : Environment} {key t u : Text} {d? : Option Value} {v : Value}

/-- The value is read as a number and as a truth value exactly as the text is, but that a truth
value is not read as a number. What cannot be read is an error of the configuration. -/
structure ReadsLike (s : Store) (key : Text) (d? : Option Value) (v : Value) (u : Text) :
    Prop where
  integer (n : Int) : s.getInteger key d? = .ok (some n) ↔
    (∀ b, v ≠ .bool b) ∧ Numeral.toInt? u.trim = some n
  truth (b : Bool) : s.getTruth key d? = .ok (some b) ↔
    u.trim.lower ∈ if b then trueWords else falseWords
  integer_or : (∃ n, s.getInteger key d? = .ok (some n)) ∨
    ∃ f, s.getInteger key d? = .error f ∧ f.category? = some .configuration
  truth_or : (∃ b, s.getTruth key d? = .ok (some b)) ∨
    ∃ f, s.getTruth key d? = .error f ∧ f.category? = some .configuration

/-- What a conversion found, or its fault. -/
def converted {α : Type} (fault : Fault) (found : Option α) : Except Fault (Option α) :=
  found.elim (.error fault) fun a => .ok (some a)

theorem converted_eq_ok_iff {α : Type} {fault : Fault} {found : Option α} {a : α} :
    converted fault found = .ok (some a) ↔ found = some a := by
  cases found <;> simp [converted]

theorem converted_cases {α : Type} {fault : Fault} (h : fault.category? = some .configuration)
    (found : Option α) : (∃ a, converted fault found = .ok (some a)) ∨
      ∃ f, converted fault found = .error f ∧ f.category? = some .configuration := by
  cases found with
  | some a => exact .inl ⟨a, rfl⟩
  | none => exact .inr ⟨fault, rfl, h⟩

theorem exists_getInteger_eq (hr : s.raw key d? = .ok v) (hv : v ≠ .null)
    (ht : v.settingText? = some t) :
    ∃ found, s.getInteger key d? = converted (.notInteger key v) found ∧
      ∀ n, found = some n ↔ (∀ b, v ≠ .bool b) ∧ Numeral.toInt? t = some n := by
  rw [getInteger, readWith_of_raw hr hv]
  by_cases hb : ∃ b, v = .bool b
  · obtain ⟨b, rfl⟩ := hb
    exact ⟨none, rfl, by simp⟩
  · rw [not_exists] at hb
    refine ⟨Numeral.toInt? t, ?_, by simp [hb]⟩
    rw [Value.toInteger_of_settingText? hb ht]
    cases Numeral.toInt? t <;> rfl

theorem getTruth_eq (hr : s.raw key d? = .ok v) (hv : v ≠ .null)
    (ht : v.settingText? = some t) :
    s.getTruth key d? = converted (.notTruth key v) (truthOfWord? t.trim.lower) := by
  rw [getTruth, readWith_of_raw hr hv, Value.toTruth_of_settingText? ht]
  cases truthOfWord? t.trim.lower <;> rfl

theorem readsLike_of_settingText? (hr : s.raw key d? = .ok v) (hv : v ≠ .null)
    (ht : v.settingText? = some t) : s.ReadsLike key d? v t := by
  obtain ⟨found, hi, hf⟩ := exists_getInteger_eq hr hv ht
  have hb := getTruth_eq hr hv ht
  constructor
  · intro n
    rw [hi, converted_eq_ok_iff, hf, Numeral.toInt?_trim]
  · intro b
    rw [hb, converted_eq_ok_iff, truthOfWord?_eq_some_iff]
  · rw [hi]
    exact converted_cases rfl found
  · rw [hb]
    exact converted_cases rfl _

/-- A value with a reference in its text is neither a number nor a truth value. -/
theorem not_converted_of_dollar (hr : s.raw key d? = .ok v) (hv : v ≠ .null)
    (ht : v.settingText? = some t) (hd : .scalar '$' ∈ t) :
    s.getInteger key d? = .error (.notInteger key v) ∧
      s.getTruth key d? = .error (.notTruth key v) := by
  obtain ⟨found, hi, hf⟩ := exists_getInteger_eq hr hv ht
  have hn : found = none := by
    refine Option.eq_none_iff_forall_ne_some.mpr fun n hn => ?_
    exact nomatch (Numeral.toInt?_of_dollar hd).symm.trans ((hf n).mp hn).2
  constructor
  · rw [hi, hn]
    rfl
  · rw [getTruth_eq hr hv ht, truthOfWord?_of_dollar hd]
    rfl

theorem dollar_mem_of_not_isLiteral (h : ¬ t.IsLiteral) : .scalar '$' ∈ t := by
  by_contra hd
  exact h (Text.isLiteral_of_not_mem hd)

/-- Where a text is read, the value is converted as that text is if replacing its references
changed nothing. A value with a reference in it, which is every other, is not converted. -/
theorem exists_readsLike_of_getText (h : s.getText env key d? = .ok (some u)) :
    ∃ v t, s.raw key d? = .ok v ∧ v.settingText = .ok t ∧ s.interpolate env t = .ok u ∧
      (u = t → s.ReadsLike key d? v u) ∧
      (u ≠ t → ¬ t.IsLiteral) ∧
      (¬ t.IsLiteral → s.getInteger key d? = .error (.notInteger key v) ∧
        s.getTruth key d? = .error (.notTruth key v)) := by
  rw [getText_eq] at h
  obtain ⟨v, hv, hr, hu⟩ := exists_raw_of_readWith h
  obtain ⟨t, ht, hu⟩ := Except.bind_eq_ok_iff.mp hu
  have hs := Value.settingText_eq_ok_iff.mp ht
  refine ⟨v, t, hr, ht, hu, ?_, ?_, fun hl => ?_⟩
  · rintro rfl
    exact readsLike_of_settingText? hr hv hs
  · intro hne hl
    exact hne (Except.ok.inj (hu.symm.trans (interpolate_of_isLiteral hl)))
  · exact not_converted_of_dollar hr hv hs (dollar_mem_of_not_isLiteral hl)

/-- A number and a switch that are variables of the environment, and a number in digits of
another script between blanks. -/
def referring : Store :=
  ⟨.ofList [("threads", .text (Piece.reference "env:N").written),
    ("start", .text (Piece.reference "env:B").written), ("cores", .text " ٤٢ ")], [], true⟩

def surroundings : Environment := [([78], "5"), ([66], "yes")]

theorem cores_readsLike : referring.getText surroundings "cores" none = .ok (some " ٤٢ ") ∧
    referring.ReadsLike "cores" none (.text " ٤٢ ") " ٤٢ " ∧
    referring.getInteger "cores" none = .ok (some 42) := by
  have hl : Text.IsLiteral " ٤٢ " := Text.isLiteral_of_not_mem (by decide)
  have hg : referring.getText surroundings "cores" none = .ok (some " ٤٢ ") := by
    rw [getText_of_text (t := " ٤٢ ") rfl, interpolate_of_isLiteral hl]
    rfl
  obtain ⟨v, t, hr, ht, -, hs, -⟩ := exists_readsLike_of_getText hg
  obtain rfl : v = .text " ٤٢ " := (Except.ok.inj hr).symm
  obtain rfl : t = " ٤٢ " := (Except.ok.inj ht).symm
  have hh := hs rfl
  exact ⟨hg, hh, (hh.integer 42).mpr ⟨nofun, by decide⟩⟩

/-- The texts that are read are a number and a word for a truth value, but neither is read. -/
theorem referring_not_readsLike :
    (referring.getText surroundings "threads" none = .ok (some "5") ∧
      Numeral.toInt? (Text.trim "5") = some 5 ∧
      referring.getInteger "threads" none =
        .error (.notInteger "threads" (.text (Piece.reference "env:N").written))) ∧
    (referring.getText surroundings "start" none = .ok (some "yes") ∧
      Text.lower (Text.trim "yes") ∈ trueWords ∧
      referring.getTruth "start" none =
        .error (.notTruth "start" (.text (Piece.reference "env:B").written))) := by
  have hn : IsVariable surroundings "env:N" "5" := ⟨"N", rfl, rfl⟩
  have hb : IsVariable surroundings "env:B" "yes" := ⟨"B", rfl, rfl⟩
  have hd {key name : Text}
      (hr : referring.raw key none = .ok (.text (Piece.reference name).written)) :=
    not_converted_of_dollar hr nofun rfl List.mem_cons_self
  refine ⟨⟨?_, by decide, ?_⟩, ?_, by decide, ?_⟩
  · rw [getText_of_text (t := (Piece.reference "env:N").written) rfl,
      interpolate_variable (by decide) hn]
    rfl
  · exact (hd rfl).1
  · rw [getText_of_text (t := (Piece.reference "env:B").written) rfl,
      interpolate_variable (by decide) hb]
    rfl
  · exact (hd rfl).2

end Store

end LayeredConfig
