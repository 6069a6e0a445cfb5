import LayeredConfig.Base64

/-! Bytes written in base 64 and read back. -/

namespace LayeredConfig.Base64

theorem symbolValue?_symbol : ∀ n < 64, symbolValue? (symbol n) = some n := by decide

theorem symbol_ne_pad : ∀ n < 64, symbol n ≠ pad := by decide

theorem byte_div_lt (b : UInt8) : b.toNat / 4 < 64 ∧ b.toNat / 16 < 16 := by
  have hb := b.toNat_lt
  omega

theorem firstByte_eq (a : UInt8) {n : Nat} (hn : n < 16) :
    firstByte (a.toNat / 4) (a.toNat % 4 * 16 + n) = a := by
  have hh : a.toNat / 4 * 4 + (a.toNat % 4 * 16 + n) / 16 = a.toNat := by omega
  rw [firstByte, hh, UInt8.ofNat_toNat]

theorem secondByte_eq (b : UInt8) {m n : Nat} (hn : n < 4) :
    secondByte (m * 16 + b.toNat / 16) (b.toNat % 16 * 4 + n) = b := by
  have hb := (byte_div_lt b).2
  have hh : (m * 16 + b.toNat / 16) % 16 * 16 + (b.toNat % 16 * 4 + n) / 4 = b.toNat := by omega
  rw [secondByte, hh, UInt8.ofNat_toNat]

theorem thirdByte_eq (c : UInt8) (m : Nat) :
    thirdByte (m * 4 + c.toNat / 64) (c.toNat % 64) = c := by
  have hc := c.toNat_lt
  have hh : (m * 4 + c.toNat / 64) % 4 * 64 + c.toNat % 64 = c.toNat := by omega
  rw [thirdByte, hh, UInt8.ofNat_toNat]

theorem decodeGroups?_encode (begun : Bool) (bs : List UInt8) :
    decodeGroups? begun (encode bs) = some bs := by
  induction bs using encode.induct generalizing begun with
  | case1 => simp [encode, decodeGroups?]
  | case2 a =>
    have ha := byte_div_lt a
    have hx := symbolValue?_symbol _ ha.1
    have hy := symbolValue?_symbol (a.toNat % 4 * 16) (by omega)
    have hf := firstByte_eq a (n := 0) (by omega)
    simp only [encode, decodeGroups?, symbol_ne_pad _ ha.1, if_false, hx, hy, if_true, and_self]
    simpa using hf
  | case3 a b =>
    have ha := byte_div_lt a
    have hb := byte_div_lt b
    have hx := symbolValue?_symbol _ ha.1
    have hy := symbolValue?_symbol (a.toNat % 4 * 16 + b.toNat / 16) (by omega)
    have hz := symbolValue?_symbol (b.toNat % 16 * 4) (by omega)
    have hzp := symbol_ne_pad (b.toNat % 16 * 4) (by omega)
    have hf := firstByte_eq a hb.2
    have hs := secondByte_eq b (m := a.toNat % 4) (n := 0) (by omega)
    simp only [encode, decodeGroups?, symbol_ne_pad _ ha.1, if_false, hx, hy, hz, hzp, if_true]
    simpa [hf] using hs
  | case4 a b c rest ih =>
    have ha := byte_div_lt a
    have hb := byte_div_lt b
    have hc := c.toNat_lt
    have hx := symbolValue?_symbol _ ha.1
    have hy := symbolValue?_symbol (a.toNat % 4 * 16 + b.toNat / 16) (by omega)
    have hz := symbolValue?_symbol (b.toNat % 16 * 4 + c.toNat / 64) (by omega)
    have hzp := symbol_ne_pad (b.toNat % 16 * 4 + c.toNat / 64) (by omega)
    have hw := symbolValue?_symbol (c.toNat % 64) (by omega)
    have hwp := symbol_ne_pad (c.toNat % 64) (by omega)
    have hf := firstByte_eq a hb.2
    have hs := secondByte_eq b (m := a.toNat % 4) (n := c.toNat / 64) (by omega)
    have ht := thirdByte_eq c (b.toNat % 16)
    simp only [encode, decodeGroups?, symbol_ne_pad _ ha.1, if_false, hx, hy, hz, hzp, hw, hwp, ih]
    simp [hf, hs, ht]

/-- What holds of all symbols and of the padding holds throughout what is written. -/
theorem forall_mem_encode {p : CodePoint → Prop} (hs : ∀ n < 64, p (symbol n)) (hp : p pad)
    (bs : List UInt8) : ∀ c ∈ encode bs, p c := by
  induction bs using encode.induct with
  | case1 => simp [encode]
  | case2 a =>
    have ha := byte_div_lt a
    simp only [encode, List.forall_mem_cons]
    exact ⟨hs _ ha.1, hs _ (by omega), hp, hp, by simp⟩
  | case3 a b =>
    have ha := byte_div_lt a
    have hb := byte_div_lt b
    simp only [encode, List.forall_mem_cons]
    exact ⟨hs _ ha.1, hs _ (by omega), hs _ (by omega), hp, by simp⟩
  | case4 a b c rest ih =>
    have ha := byte_div_lt a
    have hb := byte_div_lt b
    have hc := c.toNat_lt
    simp only [encode, List.forall_mem_cons]
    exact ⟨hs _ ha.1, hs _ (by omega), hs _ (by omega), hs _ (by omega), ih⟩

theorem decode_encode (bs : List UInt8) : decode (encode bs) = .ok bs := by
  have ht : (encode bs).trim = encode bs :=
    Text.trim_eq_self (forall_mem_encode (by decide) (by decide) bs)
  rw [decode, ht, decodeGroups?_encode]

end LayeredConfig.Base64
