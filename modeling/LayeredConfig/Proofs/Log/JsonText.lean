import LayeredConfig.Log.JsonText
import LayeredConfig.Proofs.Numeral
import LayeredConfig.Proofs.OrderedMap
import LayeredConfig.Proofs.Text.Fields
import LayeredConfig.Proofs.Traversal

/-! Values written as JSON. What is written stands on one line and holds only characters of ASCII
that can be seen, and blanks, whatever texts the value holds. -/

namespace LayeredConfig

/-- A text of the characters from space to tilde. -/
def Text.IsTypable (t : Text) : Prop := ∀ c ∈ t, 0x20 ≤ c.value ∧ c.value ≤ 0x7E

namespace Text

variable {s t : Text} {ts : List Text}

instance (t : Text) : Decidable t.IsTypable := inferInstanceAs (Decidable (∀ c ∈ t, _))

theorem IsTypable.append (hs : IsTypable s) (ht : IsTypable t) : IsTypable (s ++ t) :=
  fun c hc => (List.mem_append.mp hc).elim (hs c) (ht c)

theorem IsTypable.cons {c : CodePoint} (hc : 0x20 ≤ c.value ∧ c.value ≤ 0x7E)
    (ht : IsTypable t) : IsTypable (c :: t) :=
  List.forall_mem_cons.mpr ⟨hc, ht⟩

theorem IsTypable.of_subset (ht : IsTypable t) (h : s ⊆ t) : IsTypable s :=
  fun c hc => ht c (h hc)

theorem IsTypable.replicate {c : CodePoint} (hc : 0x20 ≤ c.value ∧ c.value ≤ 0x7E) (n : Nat) :
    IsTypable (List.replicate n c) :=
  fun _ hd => List.eq_of_mem_replicate hd ▸ hc

theorem IsTypable.flatMap {α : Type} {f : α → Text} {xs : List α} (h : ∀ x ∈ xs, IsTypable (f x)) :
    IsTypable (xs.flatMap f) := by
  intro c hc
  obtain ⟨x, hx, hc⟩ := List.mem_flatMap.mp hc
  exact h x hx c hc

theorem IsTypable.join (hs : IsTypable s) (hts : ∀ t ∈ ts, IsTypable t) :
    IsTypable (join s ts) := by
  intro c hc
  rcases mem_join hc with hc | ⟨t, ht, hc⟩
  · exact hs c hc
  · exact hts t ht c hc

theorem IsTypable.padStart {c : CodePoint} (hc : 0x20 ≤ c.value ∧ c.value ≤ 0x7E)
    (ht : IsTypable t) (width : Nat) : IsTypable (padStart width c t) :=
  (IsTypable.replicate hc _).append ht

/-- No character from space to tilde ends a line. -/
theorem IsTypable.isLineEnd (ht : IsTypable t) : ∀ c ∈ t, c.isLineEnd = false := by
  intro c hc
  have hv := ht c hc
  simp only [CodePoint.isLineEnd, Bool.or_eq_false_iff, Bool.and_eq_false_iff,
    decide_eq_false_iff_not]
  omega

end Text

open Text

/-! ### Numbers -/

theorem isTypable_digits {base : Nat} (hb : 2 ≤ base ∧ base ≤ 16) (n : Nat) :
    IsTypable (Numeral.digits base n) := by
  have hd : ∀ d < 16, 0x20 ≤ (CodePoint.digit d).value ∧ (CodePoint.digit d).value ≤ 0x7E := by
    decide
  have ho : ∀ tail, IsTypable tail → IsTypable (Numeral.digitsOnto base n tail) := by
    induction n using Nat.strongRecOn with
    | ind n ih =>
      intro tail ht
      rw [Numeral.digitsOnto]
      split
      · exact .cons (hd n (by omega)) ht
      · have hm : n % base < base := Nat.mod_lt n (by omega)
        exact ih _ (Nat.div_lt_self (by omega) (by omega)) _ (.cons (hd _ (by omega)) ht)
  exact ho [] (by simp [IsTypable])

theorem isTypable_ofNat (n : Nat) : IsTypable (Numeral.ofNat n) := isTypable_digits (by decide) n

theorem isTypable_ofInt (n : Int) : IsTypable (Numeral.ofInt n) :=
  Numeral.forall_mem_ofInt (by decide) (by decide)

namespace Binary64

theorem isTypable_exponentText (e : Int) : IsTypable (exponentText e) := by
  refine .cons ?_ (.padStart (by decide) (isTypable_ofNat _) 2)
  split <;> decide

theorem isTypable_figures (d : Decimal) : IsTypable d.figures.1 :=
  (isTypable_ofNat d.digits).of_subset (trimEnd_subset _ _)

theorem isTypable_scientific {ds : Text} (hd : IsTypable ds) (e : Int) :
    IsTypable (scientific ds e) := by
  have he : IsTypable (.scalar 'e' :: exponentText e) :=
    .cons (by decide) (isTypable_exponentText e)
  match ds with
  | [] => exact hd
  | [c] => exact .cons (hd c (by simp)) he
  | c :: d :: rest =>
    obtain ⟨hc, hr⟩ := List.forall_mem_cons.mp hd
    exact .cons hc (.cons (by decide) (.append hr he))

theorem isTypable_positional {ds : Text} (hd : IsTypable ds) (place : Int) :
    IsTypable (positional ds place) := by
  have hz (n : Nat) : IsTypable (List.replicate n (.scalar '0')) := .replicate (by decide) n
  rw [positional]
  split_ifs
  · exact (IsTypable.append (by decide) (hz _)).append hd
  · exact (hd.append (hz _)).append (by decide)
  · exact (hd.of_subset (List.take_subset _ _)).append
      (.cons (by decide) (hd.of_subset (List.drop_subset _ _)))

theorem isTypable_signText (negative : Bool) : IsTypable (signText negative) := by
  cases negative <;> decide

theorem isTypable_text (x : Binary64) : IsTypable x.text := by
  match x with
  | nan => decide
  | infinite s => exact (isTypable_signText s).append (by decide)
  | finite s 0 q => exact (isTypable_signText s).append (by decide)
  | finite s (m + 1) q =>
    rw [text]
    · refine (isTypable_signText s).append ?_
      have hd := isTypable_figures (shortest (m + 1) q)
      split_ifs
      · exact isTypable_positional hd _
      · exact isTypable_scientific hd _
    · exact nofun

end Binary64

theorem Value.isSameKey_text_iff {v : Value} {t : Text} :
    v.isSameKey (.text t) = true ↔ v = .text t := by
  cases v <;> simp [isSameKey, ratio?]

namespace JsonText

/-! ### What is written -/

theorem isTypable_unit (n : Nat) : IsTypable (unit n) :=
  .append (by decide) (.padStart (by decide) (isTypable_digits (by decide) n) 4)

theorem isTypable_escape (c : CodePoint) : IsTypable (escape c) := by
  rw [escape]
  split_ifs with hq hn hr ht hb hf hv hu
  · refine .cons (by decide) (.cons ?_ (by decide))
    rcases hq with rfl | rfl <;> decide
  · decide
  · decide
  · decide
  · decide
  · decide
  · exact .cons (by omega) (by decide)
  · exact isTypable_unit _
  · exact (isTypable_unit _).append (isTypable_unit _)

theorem isTypable_string (t : Text) : IsTypable (string t) :=
  .cons (by decide) ((IsTypable.flatMap fun c _ => isTypable_escape c).append (by decide))

theorem isTypable_float (x : Binary64) : IsTypable (float x) := by
  rw [float.eq_def]
  split
  · decide
  · decide
  · decide
  · exact x.isTypable_text

theorem isTypable_word (b : Bool) : IsTypable (word b) := by cases b <;> decide

theorem isTypable_of_digits {n : Int} {t : Text} (h : digits n = .ok t) : IsTypable t := by
  rw [digits] at h
  split at h
  · rename_i u hu
    cases h
    obtain ⟨-, rfl⟩ := Numeral.ofInt?_eq_some_iff.mp hu
    exact isTypable_ofInt n
  · cases h

mutual

theorem isTypable_of_write : ∀ {v : Value} {t : Text}, write v = .ok t → IsTypable t
  | .null, _, h => by
    cases h
    decide
  | .bool b, _, h => by
    cases h
    exact isTypable_word b
  | .int n, _, h => isTypable_of_digits h
  | .float x, _, h => by
    cases h
    exact isTypable_float x
  | .text s, _, h => by
    cases h
    exact isTypable_string s
  | .bytes bs, _, h => by
    cases h
    exact isTypable_string _
  | .moment m, _, h => by
    cases h
    exact isTypable_string _
  | .list items, _, h => by
    obtain ⟨ts, hts, h⟩ := Except.bind_eq_ok_iff.mp h
    cases h
    have hj := IsTypable.join (s := ", ") (by decide) (isTypable_of_writeItems hts)
    exact .cons (by decide) (hj.append (by decide))
  | .map entries, _, h => by
    obtain ⟨ts, hts, h⟩ := Except.bind_eq_ok_iff.mp h
    cases h
    have hj := IsTypable.join (s := ", ") (by decide) (isTypable_of_writeEntries hts)
    exact .cons (by decide) (hj.append (by decide))

theorem isTypable_of_writeItems : ∀ {vs : List Value} {ts : List Text},
    writeItems vs = .ok ts → ∀ t ∈ ts, IsTypable t
  | [], _, h => by
    cases h
    simp
  | v :: vs, _, h => by
    obtain ⟨t, ht, h⟩ := Except.bind_eq_ok_iff.mp h
    obtain ⟨ts, hts, h⟩ := Except.bind_eq_ok_iff.mp h
    cases h
    exact List.forall_mem_cons.mpr ⟨isTypable_of_write ht, isTypable_of_writeItems hts⟩

theorem isTypable_of_writeEntries : ∀ {es : List (Value × Value)} {ts : List Text},
    writeEntries es = .ok ts → ∀ t ∈ ts, IsTypable t
  | [], _, h => by
    cases h
    simp
  | (k, v) :: es, _, h => by
    obtain ⟨name, -, h⟩ := Except.bind_eq_ok_iff.mp h
    obtain ⟨t, ht, h⟩ := Except.bind_eq_ok_iff.mp h
    obtain ⟨ts, hts, h⟩ := Except.bind_eq_ok_iff.mp h
    cases h
    refine List.forall_mem_cons.mpr ⟨?_, isTypable_of_writeEntries hts⟩
    exact ((isTypable_string name).append (by decide)).append (isTypable_of_write ht)

end

theorem exists_writeEntries_iff {es : List (Text × Value)} :
    (∃ ts, writeEntries (es.map fun e => (.text e.1, e.2)) = .ok ts) ↔
      ∀ e ∈ es, ∃ t, write e.2 = .ok t := by
  induction es with
  | nil => simp [writeEntries]
  | cons e es ih =>
    rw [List.forall_mem_cons, ← ih, List.map_cons, writeEntries]
    cases write e.2 with
    | error flaw => simp [key, bind, Except.bind]
    | ok t =>
      cases writeEntries (es.map fun e => (.text e.1, e.2)) with
      | error flaw => simp [key, bind, Except.bind]
      | ok ts => simp [key, bind, Except.bind, pure, Except.pure]

/-- An object can be written if the values of its members can be. -/
theorem exists_write_ofOrderedMap_iff {m : OrderedMap Value} :
    (∃ t, write (.ofOrderedMap m) = .ok t) ↔ ∀ e ∈ m.entries, ∃ t, write e.2 = .ok t := by
  rw [Value.ofOrderedMap, write, Except.exists_bind_iff, ← exists_writeEntries_iff]
  exact exists_congr fun ts => and_iff_left ⟨_, rfl⟩

/-! ### Objects as they are read -/

/-- What a reader finds under a name. -/
def member? (name : Text) : Value → Option Value
  | .map es => (es.find? fun e => e.1.isSameKey (.text name)).map Prod.snd
  | _ => none

theorem ne_surrogate_cons {name : Text} (hn : IsTypable name) (p : Fin 0x800) (t : Text) :
    .surrogate p :: t ≠ name := by
  rintro rfl
  have hv := (hn _ List.mem_cons_self).2
  simp only [CodePoint.value] at hv
  omega

/-- What a pair of surrogates is read as cannot be typed. -/
theorem ne_ofNat_cons {name : Text} (hn : IsTypable name) {n : Nat} (h : 0x7E < n) (t : Text) :
    .scalar (Char.ofNat n) :: t ≠ name := by
  rintro rfl
  have hv := hn _ List.mem_cons_self
  rw [CodePoint.value_scalar] at hv
  by_cases hc : n.isValidChar
  · have he : (Char.ofNat n).toNat = n := by
      rw [Char.ofNat, dif_pos hc]
      rfl
    omega
  · have he : (Char.ofNat n).toNat = 0 := by
      rw [Char.ofNat, dif_neg hc]
      rfl
    omega

/-- Only the name itself is read as a name that can be typed. -/
theorem joinUnits_eq_iff {t name : Text} (hn : IsTypable name) :
    joinUnits t = name ↔ t = name := by
  induction t using joinUnits.induct generalizing name with
  | case1 => rfl
  | case2 c => rfl
  | case3 a b rest h ih =>
    rw [joinUnits, if_pos h]
    exact iff_of_false (ne_ofNat_cons hn (by omega) _) (ne_surrogate_cons hn a _)
  | case4 a b rest h ih =>
    rw [joinUnits, if_neg h]
    exact iff_of_false (ne_surrogate_cons hn a _) (ne_surrogate_cons hn a _)
  | case5 c rest h1 h2 ih =>
    rw [joinUnits.eq_4 c rest h1 h2]
    cases name with
    | nil => simp
    | cons d name =>
      obtain ⟨-, hname⟩ := List.forall_mem_cons.mp hn
      rw [List.cons_eq_cons, List.cons_eq_cons, ih hname]

theorem rereadEntries_map_text (es : List (Text × Value)) :
    rereadEntries (es.map fun e => (.text e.1, e.2)) =
      (es.map fun e => (joinUnits e.1, reread e.2)).map fun e => (.text e.1, e.2) := by
  induction es with
  | nil => rfl
  | cons e es ih =>
    rw [List.map_cons, rereadEntries, ih]
    rfl

theorem member?_writeEntry (name key : Text) (v : Value) (es : List (Value × Value)) :
    member? name (.map (Value.writeEntry (.text key) v es)) =
      if key = name then some v else member? name (.map es) := by
  induction es with
  | nil =>
    by_cases hk : key = name <;> simp [member?, Value.writeEntry, Value.isSameKey, hk]
  | cons e es ih =>
    obtain ⟨k, w⟩ := e
    simp only [member?] at ih ⊢
    rw [Value.writeEntry]
    by_cases hk : k.isSameKey (.text key) = true
    · obtain rfl := Value.isSameKey_text_iff.mp hk
      by_cases hn : key = name <;> simp [Value.isSameKey, hn]
    · rw [if_neg hk, List.find?_cons, List.find?_cons]
      by_cases hn : k.isSameKey (.text name) = true
      · have hne : key ≠ name := fun he => hk (he ▸ hn)
        simp [hn, hne]
      · simp [hn, ih]

theorem member?_mapOf (name : Text) (es : List (Text × Value)) :
    member? name (Value.mapOf (es.map fun e => (.text e.1, e.2))) =
      OrderedMap.find? name es.reverse := by
  have hh : ∀ fs : List (Value × Value), member? name (.map ((es.map fun e =>
      (Value.text e.1, e.2)).foldl (fun fs e => Value.writeEntry e.1 e.2 fs) fs)) =
      (OrderedMap.find? name es.reverse).or (member? name (.map fs)) := by
    induction es with
    | nil => exact fun _ => rfl
    | cons e es ih =>
      intro fs
      rw [List.map_cons, List.foldl_cons, ih, member?_writeEntry, List.reverse_cons,
        OrderedMap.find?_append]
      cases OrderedMap.find? name es.reverse with
      | some v => rfl
      | none => by_cases hk : e.1 = name <;> simp [OrderedMap.find?, hk]
  rw [Value.mapOf, hh []]
  simp [member?]

/-- Under a name that can be typed a reader finds what the object holds under it. -/
theorem member?_reread {name : Text} (hn : IsTypable name) (m : OrderedMap Value) :
    member? name (reread (.ofOrderedMap m)) = (m.get? name).map reread := by
  have hf : ∀ es : List (Text × Value),
      OrderedMap.find? name (es.map fun e => (joinUnits e.1, reread e.2)) =
        (OrderedMap.find? name es).map reread := by
    intro es
    induction es with
    | nil => rfl
    | cons e es ih =>
      rw [List.map_cons, OrderedMap.find?, OrderedMap.find?, ih]
      by_cases he : e.1 = name <;> simp [joinUnits_eq_iff hn, he]
  rw [Value.ofOrderedMap, reread, rereadEntries_map_text, member?_mapOf, ← List.map_reverse, hf]
  rw [← OrderedMap.get?_ofList, OrderedMap.ofList_self]

end JsonText

end LayeredConfig
