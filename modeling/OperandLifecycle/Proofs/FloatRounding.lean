import OperandLifecycle.Proofs.Equality
/-!
# Rounding rationals to binary64

`Binary64.ofFloat` reads the parts of a float and `Binary64.pack` writes them back; on a finite
float the two are inverse (`pack_ofFloat`), by way of the bit-level inverse of the float model's
`UnpackedFloat.pack` and `unpack` (`pack_unpack`).

`Binary64.nearest` rounds a positive quotient `num / den`. `alignExponent` places the quotient in
the binade `[2^52, 2^53)` (`alignExponent_spec`), `scaledDiv` splits it there into a whole part
and a remainder (`scaledDiv_spec`), and the remainder decides the rounding, ties to even
(`round_half_even_eq`). Together: every quotient in the rounding interval of a nonzero finite
float rounds to that float (`nearest_eq_of_inInterval`). The interval (`InInterval`) is the one
`Shortest.interval` describes, so digits found by `Shortest.digits` read back.
-/

namespace OperandLifecycle.Number.Binary64
open Float.Model UnpackedFloat

/-- The bits of a float split into sign, exponent field and fraction. -/
theorem toNat_bits_eq (b : BitVec 64) :
    b.toNat = (b.toNat >>> 63) * 2 ^ 63 + ((b.toNat >>> 52) % 2048) * 2 ^ 52 + b.toNat % 2 ^ 52 := by
  have hlt := b.isLt
  simp only [Nat.shiftRight_eq_div_pow]
  omega

theorem packComponents_toNat (s : Sign) (e : BitVec 11) (m : BitVec 52) :
    (packComponents Format.binary64 s e m).toNat =
      s.toBitVec.toNat * 2 ^ 63 + e.toNat * 2 ^ 52 + m.toNat := by
  have he := e.isLt
  have hm := m.isLt
  simp only [packComponents, BitVec.toNat_append]
  rw [← Nat.shiftLeft_add_eq_or_of_lt hm, ← Nat.shiftLeft_add_eq_or_of_lt he]
  simp only [Nat.shiftLeft_eq]
  ring

theorem sign_toBitVec_ofBitVec (v : BitVec 1) : (Sign.ofBitVec v).toBitVec = v := by
  unfold Sign.ofBitVec
  split
  · subst_vars; rfl
  · rename_i h
    have : v = 1#1 := by
      have := v.isLt
      apply BitVec.eq_of_toNat_eq
      have h' : v.toNat ≠ 0 := fun h0 => h (BitVec.eq_of_toNat_eq (by simpa using h0))
      simp; omega
    subst this; rfl

theorem packComponents_unpack (b : BitVec 64) :
    packComponents Format.binary64 (Sign.ofBitVec (@unpackSign Format.binary64 b)) (@unpackExponent Format.binary64 b)
      (@unpackMantissa Format.binary64 b) = b := by
  apply BitVec.eq_of_toNat_eq
  rw [packComponents_toNat, sign_toBitVec_ofBitVec]
  simp only [unpackSign, unpackExponent, unpackMantissa, BitVec.toNat_cast, BitVec.extractLsb_toNat]
  have := toNat_bits_eq b
  have hlt := b.isLt
  simp only [Nat.shiftRight_eq_div_pow] at this ⊢
  norm_num
  omega

theorem pack_unpack (b : BitVec 64) (hb : Format.binary64.Valid b) :
    UnpackedFloat.pack Format.binary64 (UnpackedFloat.unpack Format.binary64 b) = b := by
  have hsplit := packComponents_unpack b
  have hbias : Format.binary64.exponentBias = 1023 := rfl
  have hbits : Format.binary64.mantissaBits = 53 := rfl
  unfold UnpackedFloat.unpack
  simp only [hbias]
  split
  · rename_i hE
    split
    · -- an infinity
      rename_i hM
      rw [UnpackedFloat.pack, packedInfinity]
      conv_rhs => rw [← hsplit, hE, hM]
      rfl
    · -- a NaN, which a valid float holds only in its one canonical form
      rename_i hM
      rw [UnpackedFloat.pack, hb.eq_packedNaN hE hM]
  · rename_i hE
    split
    · rename_i hE0
      split
      · rename_i hM
        rw [UnpackedFloat.pack, packedZero]
        conv_rhs => rw [← hsplit, hE0, hM]
        rfl
      · -- a subnormal number
        rename_i hM
        have hlt := (@unpackMantissa Format.binary64 b).isLt
        have hlog : (@unpackMantissa Format.binary64 b).toNat.log2 < 52 := by
          rcases Nat.eq_zero_or_pos (@unpackMantissa Format.binary64 b).toNat with h | h
          · simp [h]
          · exact (Nat.log2_lt (by omega)).2 hlt
        rw [UnpackedFloat.pack]
        simp only [hE0, BitVec.toNat_zero, hbits]
        rw [if_neg (by rw [hbias]; decide), if_neg (by omega), BitVec.ofNat_toNat, BitVec.setWidth_eq, ← hE0,
          hsplit]
    · -- a normal number, whose hidden bit the packing clears again
      rename_i hE0
      have hElt : (@unpackExponent Format.binary64 b).toNat < 2048 :=
        (@unpackExponent Format.binary64 b).isLt
      have hEne : (@unpackExponent Format.binary64 b).toNat ≠ 2047 := fun h =>
        hE (BitVec.eq_of_toNat_eq (by simpa using h))
      have hE0' : (@unpackExponent Format.binary64 b).toNat ≠ 0 := fun h =>
        hE0 (BitVec.eq_of_toNat_eq (by simpa using h))
      have hMlt : (@unpackMantissa Format.binary64 b).toNat < 2 ^ 52 :=
        (@unpackMantissa Format.binary64 b).isLt
      have happ : (1#1 ++ @unpackMantissa Format.binary64 b).toNat =
          2 ^ 52 + (@unpackMantissa Format.binary64 b).toNat := by
        rw [BitVec.toNat_append, ← Nat.shiftLeft_add_eq_or_of_lt hMlt]
        simp [Nat.shiftLeft_eq]
      have hlog : (2 ^ 52 + (@unpackMantissa Format.binary64 b).toNat).log2 = 52 := by
        rw [Nat.log2_eq_iff (by positivity)]
        constructor <;> omega
      rw [UnpackedFloat.pack]
      simp only [happ, hlog, hbits, hbias, if_true]
      rw [if_neg (by simp; omega)]
      conv_rhs => rw [← hsplit]
      congr 1
      · apply BitVec.eq_of_toNat_eq
        simp; omega
      · apply BitVec.eq_of_toNat_eq
        simp; omega

/-- Reading a float back from its own bits gives the float. -/
theorem ofBits_toBits (x : Float) : Float.ofBits x.toBits = x := by
  obtain ⟨⟨bits, valid⟩⟩ := x
  have h := pack_unpack bits.toBitVec valid
  show Float.ofModel (Float.Model.pack _) = _
  congr 1
  simp only [Float.Model.pack, Float.Model.mk.injEq]
  change UInt64.ofBitVec (UnpackedFloat.pack Format.binary64
    (UnpackedFloat.unpack Format.binary64 bits.toBitVec)) = bits
  rw [h]

/-- The bits of a float as its sign, exponent field and fraction. -/
theorem toBits_toNat_eq (x : Float) :
    x.toBits.toNat = (if (ofFloat x).negative then 2 ^ 63 else 0) + exponentField x * 2 ^ 52 +
      fraction x := by
  have hlt := x.toBits.toNat_lt
  have hneg : (ofFloat x).negative = (x.toBits.toNat >>> 63 == 1) := by
    rw [ofFloat_eq]; split <;> rfl
  rw [hneg, exponentField, fraction]
  simp only [Nat.shiftRight_eq_div_pow]
  split <;> rename_i h <;> simp at h <;> omega

/-- Packing the parts of a finite float gives the float. -/
theorem pack_ofFloat (x : Float) (hf : isFinite x = true) :
    pack (ofFloat x).negative (ofFloat x).significand (ofFloat x).exponent = x := by
  have hE : exponentField x ≠ 2047 := by simpa [isFinite] using hf
  have hElt : exponentField x < 2048 := Nat.mod_lt _ (by decide)
  have hF := fraction_lt x
  have hbits := toBits_toNat_eq x
  have hsig := significand_eq x
  have hexp := exponent_eq x
  -- every branch writes the bits the float has
  suffices h : ∀ n : Nat, n = x.toBits.toNat → Float.ofBits (UInt64.ofNat n) = x by
    unfold pack
    simp only [Nat.pow_eq]
    generalize (if (ofFloat x).negative = true then 2 ^ 63 else 0) = s at hbits ⊢
    split
    · apply h
      split at hsig <;> omega
    · split
      · exfalso
        split at hexp <;> omega
      · split
        · apply h
          split at hsig <;> split at hexp <;> omega
        · apply h
          split at hsig <;> split at hexp <;> omega
  intro n hn
  rw [show UInt64.ofNat n = x.toBits from UInt64.toNat_inj.1 (by simp [hn]), ofBits_toBits]

/-! ### Rounding to nearest -/

theorem two_zpow_neg_eq (t : ℤ) : (2 : ℚ) ^ (-t) = 2 ^ (-t).toNat / 2 ^ t.toNat := by
  rw [div_eq_mul_inv, ← zpow_natCast, ← zpow_natCast, ← zpow_neg, ← zpow_add₀ two_ne_zero]
  congr 1
  omega

/-- `scaledDiv num den t` divides `num / den · 2^(-t)`: a whole part, and a remainder below the
divisor `den · 2^t` (for `t ≥ 0`). -/
theorem scaledDiv_spec (num den : ℕ) (t : ℤ) (hden : 0 < den) :
    ((scaledDiv num den t).1 : ℚ) + (scaledDiv num den t).2 / (den * 2 ^ t.toNat : ℕ) =
      (num / den : ℚ) * 2 ^ (-t) ∧ (scaledDiv num den t).2 < den * 2 ^ t.toNat := by
  simp only [scaledDiv, Nat.pow_eq]
  have hd : 0 < den * 2 ^ t.toNat := by positivity
  refine ⟨?_, Nat.mod_lt _ hd⟩
  have hsplit := Nat.div_add_mod (num * 2 ^ (-t).toNat) (den * 2 ^ t.toNat)
  rw [two_zpow_neg_eq]
  generalize num * 2 ^ (-t).toNat / (den * 2 ^ t.toNat) = Q at hsplit ⊢
  generalize num * 2 ^ (-t).toNat % (den * 2 ^ t.toNat) = R at hsplit ⊢
  have hq : ((den : ℚ) * 2 ^ t.toNat) * Q + R = num * 2 ^ (-t).toNat := by exact_mod_cast hsplit
  have hden' : (den : ℚ) ≠ 0 := by positivity
  push_cast
  field_simp
  linarith

theorem scaledDiv_fst_eq_floor (num den : ℕ) (t : ℤ) (hden : 0 < den) :
    (scaledDiv num den t).1 = ⌊(num / den : ℚ) * 2 ^ (-t)⌋₊ := by
  obtain ⟨hsum, hlt⟩ := scaledDiv_spec num den t hden
  have hd : (0 : ℚ) < (den * 2 ^ t.toNat : ℕ) := by positivity
  have hfrac : ((scaledDiv num den t).2 : ℚ) / (den * 2 ^ t.toNat : ℕ) < 1 := by
    rw [div_lt_one hd]; exact_mod_cast hlt
  symm
  rw [Nat.floor_eq_iff (by rw [← hsum]; positivity)]
  constructor <;> [skip; skip] <;> rw [← hsum]
  · exact le_add_of_nonneg_right (by positivity)
  · linarith

/-- Doubling the scaled value moves the exponent down by one. -/
theorem mul_zpow_neg_sub_one (v : ℚ) (g : ℤ) : v * 2 ^ (-(g - 1)) = 2 * (v * 2 ^ (-g)) := by
  rw [show -(g - 1) = -g + 1 by ring, zpow_add₀ two_ne_zero, zpow_one]
  ring

/-- `alignExponent` finds the exponent at which `num / den` has a significand of 53 bits, and
takes the least exponent when that one is below it. -/
theorem alignExponent_spec (num den : ℕ) (hnum : 0 < num) (hden : 0 < den) :
    ∃ q1 : ℤ, alignExponent num den = max q1 (-1074) ∧
      (2 : ℚ) ^ 52 ≤ (num / den : ℚ) * 2 ^ (-q1) ∧ (num / den : ℚ) * 2 ^ (-q1) < 2 ^ 53 := by
  have ha1 : (2 : ℚ) ^ num.log2 ≤ num := by exact_mod_cast Nat.log2_self_le hnum.ne'
  have ha2 : (num : ℚ) < 2 ^ (num.log2 + 1) := by exact_mod_cast Nat.lt_log2_self
  have hb1 : (2 : ℚ) ^ den.log2 ≤ den := by exact_mod_cast Nat.log2_self_le hden.ne'
  have hb2 : (den : ℚ) < 2 ^ (den.log2 + 1) := by exact_mod_cast Nat.lt_log2_self
  have hden' : (0 : ℚ) < den := by exact_mod_cast hden
  -- at the first guess the scaled value lies between 2^51 and 2^53
  have hy : (num / den : ℚ) * 2 ^ (-((num.log2 : ℤ) - den.log2 - 52)) =
      num * 2 ^ (den.log2 + 52) / (den * 2 ^ num.log2) := by
    rw [show -((num.log2 : ℤ) - den.log2 - 52) = ((den.log2 + 52 : ℕ) : ℤ) - (num.log2 : ℕ) by
      push_cast; ring, zpow_sub₀ two_ne_zero, zpow_natCast, zpow_natCast]
    field_simp
  have hlow : (2 : ℚ) ^ 51 < (num / den : ℚ) * 2 ^ (-((num.log2 : ℤ) - den.log2 - 52)) := by
    rw [hy, lt_div_iff₀ (by positivity)]
    calc (2 : ℚ) ^ 51 * (den * 2 ^ num.log2) < 2 ^ 51 * (2 ^ (den.log2 + 1) * 2 ^ num.log2) := by
          gcongr
      _ = 2 ^ num.log2 * 2 ^ (den.log2 + 52) := by ring
      _ ≤ num * 2 ^ (den.log2 + 52) := by gcongr
  have hhigh : (num / den : ℚ) * 2 ^ (-((num.log2 : ℤ) - den.log2 - 52)) < 2 ^ 53 := by
    rw [hy, div_lt_iff₀ (by positivity)]
    calc (num : ℚ) * 2 ^ (den.log2 + 52) < 2 ^ (num.log2 + 1) * 2 ^ (den.log2 + 52) := by gcongr
      _ = 2 ^ 53 * (2 ^ den.log2 * 2 ^ num.log2) := by ring
      _ ≤ 2 ^ 53 * (den * 2 ^ num.log2) := by gcongr
  have hQ := scaledDiv_fst_eq_floor num den ((num.log2 : ℤ) - den.log2 - 52) hden
  have hnot : ¬ (scaledDiv num den ((num.log2 : ℤ) - den.log2 - 52)).1 ≥ 2 ^ 53 := by
    rw [hQ, ge_iff_le, Nat.le_floor_iff (by positivity)]
    push_cast
    linarith
  unfold alignExponent
  simp only [Nat.pow_eq]
  rw [if_neg hnot]
  by_cases hsmall : (scaledDiv num den ((num.log2 : ℤ) - den.log2 - 52)).1 < 2 ^ 52
  · -- below 2^52 the value doubles once
    rw [hQ, Nat.floor_lt (by positivity)] at hsmall
    push_cast at hsmall
    refine ⟨(num.log2 : ℤ) - den.log2 - 52 - 1, ?_, ?_, ?_⟩
    · rw [if_pos (by rw [hQ, Nat.floor_lt (by positivity)]; push_cast; exact hsmall)]
    · rw [mul_zpow_neg_sub_one]; linarith
    · rw [mul_zpow_neg_sub_one]; linarith
  · have hge := not_lt.1 hsmall
    rw [hQ, Nat.le_floor_iff (by positivity)] at hge
    push_cast at hge
    exact ⟨_, by rw [if_neg hsmall], hge, hhigh⟩

/-- One exponent at most puts a positive value between `2^52` and `2^53`. -/
theorem binade_unique {v : ℚ} {s t : ℤ} (hs1 : (2 : ℚ) ^ 52 ≤ v * 2 ^ (-s))
    (hs2 : v * 2 ^ (-s) < 2 ^ 53) (ht1 : (2 : ℚ) ^ 52 ≤ v * 2 ^ (-t)) (ht2 : v * 2 ^ (-t) < 2 ^ 53) :
    s = t := by
  by_contra hne
  wlog hlt : s < t generalizing s t
  · exact this ht1 ht2 hs1 hs2 (Ne.symm hne) (lt_of_le_of_ne (not_lt.1 hlt) (Ne.symm hne))
  -- a larger exponent halves the scaled value at least once
  have hscale : v * 2 ^ (-s) = v * 2 ^ (-t) * 2 ^ (t - s) := by
    rw [mul_assoc, ← zpow_add₀ two_ne_zero]; congr 2; ring
  have h2 : (2 : ℚ) ≤ 2 ^ (t - s) := by
    calc (2 : ℚ) = 2 ^ (1 : ℤ) := by norm_num
      _ ≤ 2 ^ (t - s) := zpow_le_zpow_right₀ (by norm_num) (by omega)
  have : (2 : ℚ) ^ 53 ≤ v * 2 ^ (-s) := by
    rw [hscale]
    calc (2 : ℚ) ^ 53 = 2 ^ 52 * 2 := by norm_num
      _ ≤ v * 2 ^ (-t) * 2 ^ (t - s) := by gcongr
  linarith

/-- Rounding a nonnegative value given by its whole part `Q` and fraction `R / d` to the nearest
whole number, ties to even, as `nearest` does: a value within half of `m` goes to `m`, and a
value at half distance only when `m` is even. -/
theorem round_half_even_eq {Q R d m : ℕ} {y : ℚ} (hd : 0 < d) (hR : R < d) (hm : 0 < m)
    (hy : (Q : ℚ) + R / d = y) (hlo : (m : ℚ) - 1 / 2 ≤ y) (hhi : y ≤ m + 1 / 2)
    (hlo_eq : y = m - 1 / 2 → m % 2 = 0) (hhi_eq : y = m + 1 / 2 → m % 2 = 0) :
    (if 2 * R > d ∨ (2 * R = d ∧ Q % 2 = 1) then Q + 1 else Q) = m := by
  have hdq : (0 : ℚ) < d := by exact_mod_cast hd
  have hf0 : (0 : ℚ) ≤ R / d := by positivity
  have hf1 : (R : ℚ) / d < 1 := by rw [div_lt_one hdq]; exact_mod_cast hR
  -- the fraction against one half, in whole numbers
  have hgt : 2 * R > d ↔ (1 : ℚ) / 2 < R / d := by
    rw [div_lt_div_iff₀ (by norm_num) hdq]; norm_cast; omega
  have heq : 2 * R = d ↔ (R : ℚ) / d = 1 / 2 := by
    rw [div_eq_div_iff hdq.ne' (by norm_num)]; norm_cast; omega
  rcases Nat.lt_or_ge Q m with hQ | hQ
  · -- below `m`: the whole part is `m - 1` and the fraction at least one half
    have hQq : (Q : ℚ) + 1 ≤ m := by exact_mod_cast hQ
    have hQm : Q + 1 = m := by
      have : (m : ℚ) < Q + 2 := by linarith
      have : m < Q + 2 := by exact_mod_cast this
      omega
    rw [if_pos, hQm]
    rcases lt_or_eq_of_le (show (1 : ℚ) / 2 ≤ R / d by
      have : (m : ℚ) = Q + 1 := by exact_mod_cast hQm.symm
      linarith) with h | h
    · exact .inl (hgt.2 h)
    · refine .inr ⟨heq.2 h.symm, ?_⟩
      have hm2 := hlo_eq (by have : (m : ℚ) = Q + 1 := by exact_mod_cast hQm.symm
                             linarith)
      omega
  · -- at or above `m`: the whole part is `m` and the fraction at most one half
    have hQm : Q = m := by
      have : (Q : ℚ) < m + 1 := by linarith
      have : Q < m + 1 := by exact_mod_cast this
      omega
    subst hQm
    rw [if_neg]
    rintro (h | ⟨h, hodd⟩)
    · have := hgt.1 h; linarith
    · have := hhi_eq (by rw [← hy, heq.1 h])
      omega

theorem exponent_le_of_isFinite (x : Float) (hf : isFinite x = true) :
    (ofFloat x).exponent ≤ 971 := by
  have hE : exponentField x ≠ 2047 := by simpa [isFinite] using hf
  have hElt : exponentField x < 2048 := Nat.mod_lt _ (by decide)
  rw [exponent_eq]; split <;> omega

/-- A value below `2^53` at exponent `q` reaches `2^52` only at an exponent no greater. -/
theorem exponent_le_of_scaled_lt {v : ℚ} {q q1 : ℤ} (hq : v * 2 ^ (-q) < 2 ^ 53)
    (hq1 : (2 : ℚ) ^ 52 ≤ v * 2 ^ (-q1)) : q1 ≤ q := by
  by_contra hlt
  have hscale : v * 2 ^ (-q) = v * 2 ^ (-q1) * 2 ^ (q1 - q) := by
    rw [mul_assoc, ← zpow_add₀ two_ne_zero]; congr 2; ring
  have h2 : (2 : ℚ) ≤ 2 ^ (q1 - q) := by
    calc (2 : ℚ) = 2 ^ (1 : ℤ) := by norm_num
      _ ≤ 2 ^ (q1 - q) := zpow_le_zpow_right₀ (by norm_num) (by omega)
  have : (2 : ℚ) ^ 53 ≤ v * 2 ^ (-q) := by
    rw [hscale]
    calc (2 : ℚ) ^ 53 = 2 ^ 52 * 2 := by norm_num
      _ ≤ v * 2 ^ (-q1) * 2 ^ (q1 - q) := by gcongr
  linarith

/-- `nearest` of a positive quotient, from the exponent it aligns to and the whole part and
remainder there. -/
theorem nearest_of_parts (neg : Bool) {num den : ℕ} (hnum : 0 < num) (hden : 0 < den) {t : ℤ}
    (ht : alignExponent num den = t) {Q R : ℕ} (hsd : scaledDiv num den t = (Q, R)) :
    nearest neg num den =
      if (if 2 * R > den * 2 ^ t.toNat ∨ (2 * R = den * 2 ^ t.toNat ∧ Q % 2 = 1) then Q + 1
          else Q) = 2 ^ 53 then pack neg (2 ^ 52) (t + 1)
      else pack neg (if 2 * R > den * 2 ^ t.toNat ∨ (2 * R = den * 2 ^ t.toNat ∧ Q % 2 = 1)
          then Q + 1 else Q) t := by
  unfold nearest
  rw [if_neg (by omega)]
  simp only [ht, hsd, Nat.pow_eq]

/-- The rational `v` lies in the rounding interval of the float with parts `b`: the interval's
ends are counted in units of `2^(e - 2)`, and belong to it when the significand is even. -/
def InInterval (b : Binary64) (v : ℚ) : Prop :=
  ((Shortest.interval b).low * (2 : ℚ) ^ (b.exponent - 2) < v ∨
      ((Shortest.interval b).closed = true ∧
        v = (Shortest.interval b).low * (2 : ℚ) ^ (b.exponent - 2))) ∧
    (v < (Shortest.interval b).high * (2 : ℚ) ^ (b.exponent - 2) ∨
      ((Shortest.interval b).closed = true ∧
        v = (Shortest.interval b).high * (2 : ℚ) ^ (b.exponent - 2)))

theorem mul_unit_eq (a : ℚ) (q : ℤ) : a * 2 ^ (q - 2) = a / 4 * 2 ^ q := by
  rw [zpow_sub₀ two_ne_zero]; ring

theorem scaled_eq (v : ℚ) (q : ℤ) : v = v * 2 ^ (-q) * 2 ^ q := by
  rw [mul_assoc, ← zpow_add₀ two_ne_zero, neg_add_cancel, zpow_zero, mul_one]

/-- The rounding interval of a nonzero float, read at its own exponent: within half of the
significand above, within a half or (at a power of two above the least exponent) a quarter
below, the ends counting only for an even significand. -/
theorem inInterval_scaled {b : Binary64} {v : ℚ} (hm : 0 < b.significand) (hv : InInterval b v) :
    let y := v * 2 ^ (-b.exponent)
    let gap : ℚ := if b.significand = 2 ^ 52 ∧ b.exponent > -1074 then 1 / 4 else 1 / 2
    (b.significand - gap ≤ y ∧ (y = b.significand - gap → b.significand % 2 = 0)) ∧
      (y ≤ b.significand + 1 / 2 ∧ (y = b.significand + 1 / 2 → b.significand % 2 = 0)) := by
  intro y gap
  have hpos : (0 : ℚ) < 2 ^ b.exponent := zpow_pos (by norm_num) _
  have hv' : v = y * 2 ^ b.exponent := scaled_eq v b.exponent
  have hclosed : (Shortest.interval b).closed = true ↔ b.significand % 2 = 0 := by
    simp [Shortest.interval]
  have hhigh : ((Shortest.interval b).high : ℚ) / 4 = b.significand + 1 / 2 := by
    simp only [Shortest.interval]; push_cast; ring
  have hlow : ((Shortest.interval b).low : ℚ) / 4 = b.significand - gap := by
    simp only [Shortest.interval, gap, Nat.pow_eq]
    split <;> (rw [Nat.cast_sub (by omega)]; push_cast; ring)
  obtain ⟨hL, hH⟩ := hv
  rw [mul_unit_eq, hlow, hv'] at hL
  rw [mul_unit_eq, hhigh, hv'] at hH
  refine ⟨⟨?_, fun h => ?_⟩, ⟨?_, fun h => ?_⟩⟩
  · rcases hL with h | ⟨-, h⟩
    · exact le_of_lt (lt_of_mul_lt_mul_right h hpos.le)
    · exact ge_of_eq (mul_right_cancel₀ hpos.ne' h)
  · rcases hL with h' | ⟨hc, -⟩
    · rw [h] at h'; exact absurd h' (lt_irrefl _)
    · exact hclosed.1 hc
  · rcases hH with h | ⟨-, h⟩
    · exact le_of_lt (lt_of_mul_lt_mul_right h hpos.le)
    · exact le_of_eq (mul_right_cancel₀ hpos.ne' h)
  · rcases hH with h' | ⟨hc, -⟩
    · rw [h] at h'; exact absurd h' (lt_irrefl _)
    · exact hclosed.1 hc

/-- A quotient in the rounding interval of a nonzero finite float rounds to that float. -/
theorem nearest_eq_of_inInterval (x : Float) (hf : isFinite x = true)
    (hm : (ofFloat x).significand ≠ 0) {num den : ℕ} (hnum : 0 < num) (hden : 0 < den)
    (hv : InInterval (ofFloat x) (num / den)) : nearest (ofFloat x).negative num den = x := by
  have hmlt := significand_lt x
  have hqge := exponent_ge x
  have hnorm := normal_of_exponent_gt x
  have hqle := exponent_le_of_isFinite x hf
  obtain ⟨⟨hlo, hlo_eq⟩, ⟨hhi, hhi_eq⟩⟩ := inInterval_scaled (Nat.pos_of_ne_zero hm) hv
  obtain ⟨q1, hal, hq1, hq1'⟩ := alignExponent_spec num den hnum hden
  conv_rhs => rw [← pack_ofFloat x hf]
  generalize (ofFloat x).negative = neg at *
  generalize hmdef : (ofFloat x).significand = m at *
  generalize hqdef : (ofFloat x).exponent = q at *
  generalize hydef : (num / den : ℚ) * 2 ^ (-q) = y at *
  have hmq : (m : ℚ) < 2 ^ 53 := by exact_mod_cast hmlt
  have hm1 : (1 : ℚ) ≤ m := by exact_mod_cast Nat.pos_of_ne_zero hm
  by_cases hB : m = 2 ^ 52 ∧ q > -1074 ∧ y < m
  · -- just below a power of two the value is read at the exponent below, where it rounds up
    -- to the next power of two
    obtain ⟨rfl, hq, hy⟩ := hB
    rw [if_pos ⟨rfl, hq⟩] at hlo hlo_eq
    have h2y : (num / den : ℚ) * 2 ^ (-(q - 1)) = 2 * y := by rw [mul_zpow_neg_sub_one, hydef]
    have hq1eq : q1 = q - 1 :=
      binade_unique hq1 hq1' (by rw [h2y]; push_cast at hlo ⊢; linarith)
        (by rw [h2y]; push_cast at hy ⊢; linarith)
    have ht : alignExponent num den = q - 1 := by rw [hal, hq1eq]; omega
    rcases hsd : scaledDiv num den (q - 1) with ⟨Q, R⟩
    obtain ⟨hsum, hR⟩ := scaledDiv_spec num den (q - 1) hden
    simp only [hsd] at hsum hR
    rw [h2y] at hsum
    rw [nearest_of_parts neg hnum hden ht hsd, round_half_even_eq (m := 2 ^ 53) (by positivity) hR
      (by positivity) hsum (by push_cast at hlo ⊢; linarith) (by push_cast at hy ⊢; linarith)
      (fun _ => rfl) (fun _ => rfl), if_pos rfl, sub_add_cancel]
  · -- elsewhere the value is read at the float's own exponent
    have hm53 : (m : ℚ) + 1 ≤ 2 ^ 53 := by exact_mod_cast hmlt
    have hyhi : y < 2 ^ 53 := by linarith
    have ht : alignExponent num den = q := by
      rw [hal]
      by_cases hq : q = -1074
      · have := exponent_le_of_scaled_lt (by rw [hydef]; exact hyhi) hq1
        omega
      · have hnm := hnorm (by omega)
        -- at or above `2^52` the value keeps the float's exponent
        have hy52 : (2 : ℚ) ^ 52 ≤ y := by
          by_cases hm52 : m = 2 ^ 52
          · have : ¬ y < m := fun h => hB ⟨hm52, by omega, h⟩
            rw [hm52] at this; push_cast at this; linarith
          · have : (2 : ℚ) ^ 52 + 1 ≤ m := by exact_mod_cast (by omega : 2 ^ 52 + 1 ≤ m)
            split at hlo <;> linarith
        rw [binade_unique hq1 hq1' (by rw [hydef]; exact hy52) (by rw [hydef]; exact hyhi)]
        omega
    -- the gap below counts as a half here
    have hlo' : (m : ℚ) - 1 / 2 ≤ y := by
      split at hlo
      · rename_i hb
        have : ¬ y < m := fun h => hB ⟨hb.1, hb.2, h⟩
        linarith
      · exact hlo
    have hlo_eq' : y = m - 1 / 2 → m % 2 = 0 := by
      intro h
      split at hlo_eq
      · rename_i hb
        exact absurd (by linarith) (fun h' : y < m => hB ⟨hb.1, hb.2, h'⟩)
      · exact hlo_eq h
    rcases hsd : scaledDiv num den q with ⟨Q, R⟩
    obtain ⟨hsum, hR⟩ := scaledDiv_spec num den q hden
    simp only [hsd] at hsum hR
    rw [hydef] at hsum
    rw [nearest_of_parts neg hnum hden ht hsd, round_half_even_eq (by positivity) hR (Nat.pos_of_ne_zero hm)
      hsum hlo' hhi hlo_eq' hhi_eq, if_neg (by omega)]

/-! ### Zeros and the range of the rounding interval -/

theorem negative_ofFloat (x : Float) : (ofFloat x).negative = signBit x := by
  rw [ofFloat_eq]; split <;> rfl

/-- A zero packs back from its sign alone. -/
theorem pack_zero_eq (x : Float) (hf : isFinite x = true) (hm : (ofFloat x).significand = 0) :
    pack (signBit x) 0 0 = x := by
  conv_rhs => rw [← pack_ofFloat x hf]
  rw [hm, negative_ofFloat]
  simp [pack]

/-- The rounding interval of a nonzero finite float lies between `10^-331` and `10^310`. -/
theorem inInterval_bounds {x : Float} (hf : isFinite x = true) (hm : (ofFloat x).significand ≠ 0)
    {v : ℚ} (hv : InInterval (ofFloat x) v) : (10 : ℚ) ^ (-331 : ℤ) < v ∧ v < 10 ^ (310 : ℤ) := by
  have hq1 := exponent_ge x
  have hq2 := exponent_le_of_isFinite x hf
  have hmlt : ((ofFloat x).significand : ℚ) < 2 ^ 53 := by exact_mod_cast significand_lt x
  have hm1 : (1 : ℚ) ≤ (ofFloat x).significand := by exact_mod_cast Nat.pos_of_ne_zero hm
  obtain ⟨⟨hlo, -⟩, ⟨hhi, -⟩⟩ := inInterval_scaled (Nat.pos_of_ne_zero hm) hv
  have hv' : v = v * 2 ^ (-(ofFloat x).exponent) * 2 ^ (ofFloat x).exponent := scaled_eq v _
  have hy1 : (1 : ℚ) / 2 ≤ v * 2 ^ (-(ofFloat x).exponent) := by split at hlo <;> linarith
  have hy2 : v * 2 ^ (-(ofFloat x).exponent) < 2 ^ 54 := by linarith
  generalize v * 2 ^ (-(ofFloat x).exponent) = y at hy1 hy2 hv'
  generalize (ofFloat x).exponent = q at hq1 hq2 hv'
  subst hv'
  have hlow : (10 : ℚ) ^ (-331 : ℤ) < 2 ^ (-1075 : ℤ) := by
    rw [zpow_neg, zpow_neg, inv_lt_inv₀ (by positivity) (by positivity), zpow_ofNat, zpow_ofNat]
    exact_mod_cast (by decide +kernel : (2 : ℕ) ^ 1075 < 10 ^ 331)
  have hhigh : (2 : ℚ) ^ (1025 : ℤ) < 10 ^ (310 : ℤ) := by
    rw [zpow_ofNat, zpow_ofNat]
    exact_mod_cast (by decide +kernel : (2 : ℕ) ^ 1025 < 10 ^ 310)
  constructor
  · calc (10 : ℚ) ^ (-331 : ℤ) < 2 ^ (-1075 : ℤ) := hlow
      _ = 1 / 2 * 2 ^ (-1074 : ℤ) := by
          rw [show (-1075 : ℤ) = -1 + -1074 by norm_num, zpow_add₀ two_ne_zero]; norm_num
      _ ≤ y * 2 ^ q :=
          mul_le_mul hy1 (zpow_le_zpow_right₀ (by norm_num) hq1) (by positivity) (by linarith)
  · have h971 : (2 : ℚ) ^ q ≤ 2 ^ (971 : ℤ) := zpow_le_zpow_right₀ (by norm_num) hq2
    calc y * 2 ^ q < 2 ^ (54 : ℤ) * 2 ^ (971 : ℤ) := by
          rw [zpow_ofNat]; exact mul_lt_mul hy2 h971 (by positivity) (by positivity)
      _ = 2 ^ (1025 : ℤ) := by rw [← zpow_add₀ two_ne_zero]; congr 1
      _ < 10 ^ (310 : ℤ) := hhigh

end OperandLifecycle.Number.Binary64
