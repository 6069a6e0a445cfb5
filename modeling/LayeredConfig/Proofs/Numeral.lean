import Mathlib.Data.Nat.Digits.Lemmas
import Mathlib.Tactic.SplitIfs
import LayeredConfig.Proofs.Text.Fields
import LayeredConfig.Text.Quoted

/-! Whole numbers written in decimal and read back. -/

namespace LayeredConfig.Numeral

def decimals (n : Nat) : List Nat := if n = 0 then [0] else (Nat.digits 10 n).reverse

theorem lt_of_mem_decimals {n d : Nat} (h : d ∈ decimals n) : d < 10 := by
  rw [decimals] at h
  split at h
  · simp only [List.mem_singleton] at h
    omega
  · exact Nat.digits_lt_base (by omega) (List.mem_reverse.mp h)

theorem decimals_ne_nil (n : Nat) : decimals n ≠ [] := by
  rw [decimals]
  split
  · simp
  · rename_i h
    simpa using Nat.digits_ne_nil_iff_ne_zero.mpr h

theorem valueOf_decimals (n : Nat) : valueOf (decimals n) = n := by
  rw [decimals]
  split
  · rename_i h
    rw [h]
    rfl
  · have hh := Nat.ofDigits_digits 10 n
    rw [Nat.ofDigits_eq_foldr] at hh
    rw [valueOf, List.foldl_reverse]
    simpa [Nat.add_comm] using hh

theorem length_decimals_le_iff {n k : Nat} (hk : 0 < k) :
    (decimals n).length ≤ k ↔ n < 10 ^ k := by
  rw [decimals]
  split
  · rename_i h
    simp [h, Nat.succ_le_iff, hk]
  · rw [List.length_reverse]
    exact Nat.digits_length_le_iff (by omega) n

theorem digitsOnto_ten {n : Nat} (hn : n ≠ 0) (tail : Text) :
    digitsOnto 10 n tail = (Nat.digits 10 n).reverse.map CodePoint.digit ++ tail := by
  induction n using Nat.strongRecOn generalizing tail with
  | ind n ih =>
    rw [digitsOnto]
    split
    · rw [Nat.digits_of_lt 10 n hn (by omega)]
      rfl
    · rw [ih (n / 10) (by omega) (by omega), Nat.digits_def' (n := n) (by omega) (by omega)]
      simp

theorem ofNat_eq (n : Nat) : ofNat n = (decimals n).map CodePoint.digit := by
  rw [ofNat, digits, decimals]
  split
  · rename_i h
    rw [h, digitsOnto]
    rfl
  · rename_i h
    rw [digitsOnto_ten h, List.append_nil]

theorem ofInt_natCast_of_lt {d : Nat} (h : d < 10) : ofInt d = [.digit d] := by
  have hd : decimals d = [d] := by
    rw [decimals]
    split
    · rename_i h0
      rw [h0]
    · rename_i h0
      rw [Nat.digits_of_lt 10 d h0 h]
      rfl
  rw [ofInt, if_neg (by omega), Int.natAbs_natCast, ofNat_eq, hd]
  rfl

theorem decimalValue?_digit : ∀ d < 10, (CodePoint.digit d).decimalValue? = some d := by decide

theorem forall_mem_ofNat {p : CodePoint → Prop} (hd : ∀ d < 10, p (.digit d)) {n : Nat} :
    ∀ c ∈ ofNat n, p c := by
  intro c hc
  rw [ofNat_eq] at hc
  obtain ⟨d, hm, rfl⟩ := List.mem_map.mp hc
  exact hd d (lt_of_mem_decimals hm)

theorem ofNat_ne_nil (n : Nat) : ofNat n ≠ [] := by
  simp [ofNat_eq, decimals_ne_nil]

theorem ofNat_injective {m n : Nat} (h : ofNat m = ofNat n) : m = n := by
  have hd (k : Nat) : (ofNat k).filterMap CodePoint.decimalValue? = decimals k := by
    have hh : ∀ d ∈ decimals k, (CodePoint.decimalValue? ∘ CodePoint.digit) d = some d :=
      fun d hd => decimalValue?_digit d (lt_of_mem_decimals hd)
    rw [ofNat_eq, List.filterMap_map, List.filterMap_congr hh, List.filterMap_some]
  rw [← valueOf_decimals m, ← hd, h, hd, valueOf_decimals]

theorem moreDigits?_map_digit {ds : List Nat} (h : ∀ d ∈ ds, d < 10) :
    moreDigits? (ds.map CodePoint.digit) = some ds := by
  induction ds with
  | nil => rfl
  | cons d ds ih =>
    rw [List.map_cons, moreDigits?.eq_def]
    simp only [decimalValue?_digit d (h d List.mem_cons_self),
      ih fun e he => h e (List.mem_cons_of_mem _ he), Option.map_some]

theorem toNat?_ofNat {n : Nat} (h : n < 10 ^ maxDigits) : toNat? (ofNat n) = some n := by
  have hd : digits? (ofNat n) = some (decimals n) := by
    have hlt : ∀ d ∈ decimals n, d < 10 := fun d => lt_of_mem_decimals
    rw [ofNat_eq]
    cases hn : decimals n with
    | nil => exact absurd hn (decimals_ne_nil n)
    | cons d ds =>
      rw [hn] at hlt
      rw [List.map_cons, digits?, decimalValue?_digit d (hlt d List.mem_cons_self),
        moreDigits?_map_digit fun e he => hlt e (List.mem_cons_of_mem _ he)]
      rfl
  rw [toNat?, hd, Option.bind_some, if_pos ((length_decimals_le_iff (by decide)).mpr h),
    valueOf_decimals]

/-- What holds of the minus sign and of the digits holds throughout a number. -/
theorem forall_mem_ofInt {p : CodePoint → Prop} (hs : p (.scalar '-'))
    (hd : ∀ d < 10, p (.digit d)) {n : Int} : ∀ c ∈ ofInt n, p c := by
  have hn : ∀ c ∈ ofNat n.natAbs, p c := forall_mem_ofNat hd
  intro c hc
  rw [ofInt] at hc
  split at hc
  · rcases List.mem_cons.mp hc with rfl | hc
    · exact hs
    · exact hn c hc
  · exact hn c hc

theorem isBlank_of_mem_ofInt {n : Int} : ∀ c ∈ ofInt n, c.isBlank = false :=
  forall_mem_ofInt (by decide) (by decide)

theorem lower_ofInt (n : Int) : (ofInt n).lower = ofInt n :=
  (List.map_congr_left (forall_mem_ofInt (by decide) (by decide))).trans (List.map_id _)

theorem quoted_ne_ofInt (t : Text) (n : Int) : t.quoted ≠ ofInt n := by
  have hm : ∀ c ∈ ofInt n, c ≠ .scalar '\'' ∧ c ≠ .scalar '"' :=
    forall_mem_ofInt (by decide) (by decide)
  intro h
  rw [← h, Text.quoted, List.forall_mem_append, List.forall_mem_cons] at hm
  have hq := hm.1.1
  rw [Text.quoteMark] at hq
  split_ifs at hq
  · exact hq.2 rfl
  · exact hq.1 rfl

theorem digit_ne_sign : ∀ d < 10, CodePoint.digit d ≠ .scalar '-' ∧
    CodePoint.digit d ≠ .scalar '+' := by decide

theorem toInt?_ofInt {n : Int} (h : n.natAbs < 10 ^ maxDigits) : toInt? (ofInt n) = some n := by
  rw [toInt?, Text.trim_eq_self isBlank_of_mem_ofInt, ofInt]
  have hnat := toNat?_ofNat h
  by_cases hn : n < 0
  · simp only [hn, if_true, hnat]
    simp only [Option.bind_eq_bind, Option.bind_some, Option.pure_def, Option.map_some,
      Option.some.injEq]
    omega
  · obtain ⟨d, ds, hds⟩ := List.exists_cons_of_ne_nil (decimals_ne_nil n.natAbs)
    have hs := digit_ne_sign d (lt_of_mem_decimals (hds ▸ List.mem_cons_self))
    have ht : ofNat n.natAbs = CodePoint.digit d :: ds.map CodePoint.digit := by
      rw [ofNat_eq, hds, List.map_cons]
    simp only [hn, if_false]
    split
    · rename_i rest heq
      exact absurd (List.cons.inj (ht.symm.trans heq)).1 hs.1
    · rename_i rest heq
      exact absurd (List.cons.inj (ht.symm.trans heq)).1 hs.2
    · rw [hnat, Option.map_some]
      congr 1
      simp only [Int.ofNat_eq_natCast]
      omega

theorem ofInt?_eq_some_iff {n : Int} {t : Text} :
    ofInt? n = some t ↔ n.natAbs < 10 ^ maxDigits ∧ ofInt n = t := by
  have hl : (ofNat n.natAbs).length ≤ maxDigits ↔ n.natAbs < 10 ^ maxDigits := by
    rw [ofNat_eq, List.length_map]
    exact length_decimals_le_iff (by decide)
  rw [ofInt?, ← hl]
  split_ifs with h
  · simp [h]
  · simp [h]

theorem ofInt?_eq_some {n : Int} (h : n.natAbs < 10 ^ maxDigits) : ofInt? n = some (ofInt n) :=
  ofInt?_eq_some_iff.mpr ⟨h, rfl⟩

/-! ### What a number is written with -/

theorem isDecimalDigit_of_decimalValue? {c : CodePoint} {d : Nat} (h : c.decimalValue? = some d) :
    c.isDecimalDigit = true := by
  rw [CodePoint.isDecimalDigit, h]
  rfl

theorem forall_mem_of_moreDigits? {t : Text} {ds : List Nat} (h : moreDigits? t = some ds) :
    ∀ c ∈ t, c.isDecimalDigit = true ∨ c = .scalar '_' := by
  induction t using moreDigits?.induct generalizing ds with
  | case1 => simp
  | case2 c rest d hd ih =>
    rw [moreDigits?.eq_def] at h
    simp only [hd] at h
    obtain ⟨es, he, -⟩ := Option.map_eq_some_iff.mp h
    exact List.forall_mem_cons.mpr ⟨.inl (isDecimalDigit_of_decimalValue? hd), ih he⟩
  | case3 c hc =>
    rw [moreDigits?.eq_def] at h
    simp [hc] at h
  | case4 c rest hc ih =>
    rw [moreDigits?.eq_def] at h
    simp only [hc, if_true] at h
    obtain ⟨d, hd, hm⟩ := Option.bind_eq_some_iff.mp h
    obtain ⟨es, he, -⟩ := Option.map_eq_some_iff.mp hm
    exact List.forall_mem_cons.mpr ⟨.inr rfl,
      List.forall_mem_cons.mpr ⟨.inl (isDecimalDigit_of_decimalValue? hd), ih he⟩⟩
  | case5 c hc c' rest hn =>
    rw [moreDigits?.eq_def] at h
    simp [hc, hn] at h

theorem forall_mem_of_toNat? {t : Text} {n : Nat} (h : toNat? t = some n) :
    ∀ c ∈ t, c.isDecimalDigit = true ∨ c = .scalar '_' := by
  obtain ⟨ds, hds, -⟩ := Option.bind_eq_some_iff.mp h
  cases t with
  | nil => simp
  | cons c rest =>
    obtain ⟨d, hd, hm⟩ := Option.bind_eq_some_iff.mp hds
    obtain ⟨es, he, -⟩ := Option.map_eq_some_iff.mp hm
    exact List.forall_mem_cons.mpr
      ⟨.inl (isDecimalDigit_of_decimalValue? hd), forall_mem_of_moreDigits? he⟩

/-- Blanks apart, a number has digits, underscores and a sign. -/
theorem forall_mem_of_toInt? {t : Text} {n : Int} (h : toInt? t = some n) :
    ∀ c ∈ t, c.isBlank = true ∨ c.isDecimalDigit = true ∨
      c ∈ [.scalar '_', .scalar '-', .scalar '+'] := by
  have hnat {rest : Text} {m : Nat} (hr : toNat? rest = some m) : ∀ c ∈ rest,
      c.isDecimalDigit = true ∨ c ∈ [.scalar '_', .scalar '-', .scalar '+'] := by
    intro c hc
    exact (forall_mem_of_toNat? hr c hc).imp id (by rintro rfl; simp)
  have hm : ∀ c ∈ t.trim, c.isDecimalDigit = true ∨
      c ∈ [.scalar '_', .scalar '-', .scalar '+'] := by
    rw [toInt?] at h
    split at h
    · rename_i rest ht
      obtain ⟨n, hn, -⟩ := Option.map_eq_some_iff.mp h
      obtain ⟨m, hr, -⟩ := Option.bind_eq_some_iff.mp hn
      rw [ht]
      exact List.forall_mem_cons.mpr ⟨.inr (by simp), hnat hr⟩
    · rename_i rest ht
      obtain ⟨m, hr, -⟩ := Option.map_eq_some_iff.mp h
      rw [ht]
      exact List.forall_mem_cons.mpr ⟨.inr (by simp), hnat hr⟩
    · obtain ⟨m, hr, -⟩ := Option.map_eq_some_iff.mp h
      exact hnat hr
  intro c hc
  cases hb : c.isBlank with
  | true => exact .inl rfl
  | false => exact .inr (hm c (Text.mem_trim hc hb))

theorem toInt?_trim (t : Text) : toInt? t.trim = toInt? t := by
  rw [toInt?, toInt?, Text.trim_trim]

end LayeredConfig.Numeral
