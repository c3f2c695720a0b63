import OperandLifecycle.Proofs.FloatRounding
/-!
# The shortest digits read back

`Shortest.readsBack` decides, with exact integer comparisons, whether a decimal `c · 10^k` lies
in the rounding interval of a float (`readsBack_iff`). `decimalExponent` gives a power of ten
at or below the float (`decimalExponent_le`), and on the grid of seventeen significant digits
from there a point always reads back (`tryGrid_seventeen`): the grid is finer than the interval.
So the search of `Shortest.digits` always finds a grid, and the digits it returns, trailing
zeros dropped, are positive and lie in the interval (`digits_spec`).
-/

namespace OperandLifecycle.Number.Shortest
open Binary64

/-- Two whole numbers compare as the rationals they are a common positive multiple of. -/
theorem compare_of_scaled {X Y : ℕ} {x y P : ℚ} (hP : 0 < P) (hX : (X : ℚ) = x * P)
    (hY : (Y : ℚ) = y * P) : compare X Y = compare x y := by
  rcases lt_trichotomy x y with h | h | h
  · rw [compare_lt_iff_lt.2 h, compare_lt_iff_lt]
    exact_mod_cast (show (X : ℚ) < Y by rw [hX, hY]; exact mul_lt_mul_of_pos_right h hP)
  · rw [compare_eq_iff_eq.2 h, compare_eq_iff_eq]
    exact_mod_cast (show (X : ℚ) = Y by rw [hX, hY, h])
  · rw [compare_gt_iff_gt.2 h, compare_gt_iff_gt]
    exact_mod_cast (show (Y : ℚ) < X by rw [hX, hY]; exact mul_lt_mul_of_pos_right h hP)

theorem zpow_mul_zpow_neg_toNat (b : ℚ) (hb : b ≠ 0) (k : ℤ) : b ^ k * b ^ (-k).toNat = b ^ k.toNat := by
  rw [← zpow_natCast, ← zpow_natCast, ← zpow_add₀ hb]; congr 1; omega

/-- `compareDecBin` compares `c · 10^k` with `a · 2^q` exactly. -/
theorem compareDecBin_eq (c : ℕ) (k : ℤ) (a : ℕ) (q : ℤ) :
    compareDecBin c k a q = compare ((c : ℚ) * 10 ^ k) (a * 2 ^ q) := by
  unfold compareDecBin
  simp only [Nat.pow_eq]
  -- both sides are scaled by `10^(-k) · 2^(-q)`, taking the parts that are whole
  refine compare_of_scaled (P := 10 ^ (-k).toNat * 2 ^ (-q).toNat) (by positivity) ?_ ?_
  · push_cast
    rw [← zpow_mul_zpow_neg_toNat 10 (by norm_num) k]
    ring
  · push_cast
    rw [← zpow_mul_zpow_neg_toNat 2 (by norm_num) q]
    ring

/-- `readsBack` says that `c · 10^k` lies in the rounding interval of the float. -/
theorem readsBack_iff (b : Binary64) (c : ℕ) (k : ℤ) :
    readsBack b c k = true ↔ InInterval b ((c : ℚ) * 10 ^ k) := by
  unfold readsBack InInterval
  simp only [compareDecBin_eq, Bool.and_eq_true, Bool.or_eq_true, beq_iff_eq, compare_gt_iff_gt,
    compare_eq_iff_eq, compare_lt_iff_lt]


/-! ### The decimal exponent -/

/-- `30103 / 100000` is close enough to `log₁₀ 2` over the exponents of binary64: the power of
ten one below the guess is at most `2^L`. -/
theorem ten_zpow_guess_le (L : ℤ) (hL1 : -2000 ≤ L) (hL2 : L ≤ 30000) :
    (10 : ℚ) ^ (L * 30103 / 100000 - 1) ≤ 2 ^ L := by
  have hg := Int.ediv_mul_le (L * 30103) (by norm_num : (100000 : ℤ) ≠ 0)
  have h602 : (10 : ℚ) ^ (602 : ℤ) ≤ 2 ^ (2000 : ℤ) := by
    rw [zpow_ofNat, zpow_ofNat]
    exact_mod_cast (by decide +kernel : (10 : ℕ) ^ 602 ≤ 2 ^ 2000)
  have h603 : (2 : ℚ) ^ (2000 : ℤ) ≤ 10 ^ (603 : ℤ) := by
    rw [zpow_ofNat, zpow_ofNat]
    exact_mod_cast (by decide +kernel : (2 : ℕ) ^ 2000 ≤ 10 ^ 603)
  -- the 2000th powers compare through `10^602 ≤ 2^2000 ≤ 10^603`
  have key : (10 : ℚ) ^ ((L * 30103 / 100000 - 1) * 2000) ≤ 2 ^ (2000 * L) := by
    rcases le_or_gt 0 L with hL | hL
    · calc (10 : ℚ) ^ ((L * 30103 / 100000 - 1) * 2000) ≤ 10 ^ (602 * L) :=
            zpow_le_zpow_right₀ (by norm_num) (by omega)
        _ = ((10 : ℚ) ^ (602 : ℤ)) ^ L := zpow_mul _ _ _
        _ ≤ ((2 : ℚ) ^ (2000 : ℤ)) ^ L := zpow_le_zpow_left₀ hL (by positivity) h602
        _ = 2 ^ (2000 * L) := (zpow_mul _ _ _).symm
    · calc (10 : ℚ) ^ ((L * 30103 / 100000 - 1) * 2000) ≤ 10 ^ (603 * L) :=
            zpow_le_zpow_right₀ (by norm_num) (by omega)
        _ = (((10 : ℚ) ^ (603 : ℤ)) ^ (-L))⁻¹ := by rw [← zpow_mul, mul_neg, zpow_neg, inv_inv]
        _ ≤ (((2 : ℚ) ^ (2000 : ℤ)) ^ (-L))⁻¹ :=
            inv_anti₀ (by positivity) (zpow_le_zpow_left₀ (by omega) (by positivity) h603)
        _ = 2 ^ (2000 * L) := by rw [← zpow_mul, mul_neg, zpow_neg, inv_inv]
  have hpow : ((10 : ℚ) ^ (L * 30103 / 100000 - 1)) ^ 2000 ≤ ((2 : ℚ) ^ L) ^ 2000 := by
    rw [← zpow_natCast, ← zpow_natCast, ← zpow_mul, ← zpow_mul, Nat.cast_ofNat, mul_comm L (2000 : ℤ)]
    exact key
  exact (pow_le_pow_iff_left₀ (by positivity) (by positivity) (by norm_num)).1 hpow

/-- The decimal exponent of a positive float is at most the one of its value: `10^e ≤ x`. -/
theorem decimalExponent_le (b : Binary64) (hm : 0 < b.significand) (hq1 : -1074 ≤ b.exponent)
    (hq2 : b.exponent ≤ 971) (hm' : b.significand < 2 ^ 53) :
    (10 : ℚ) ^ decimalExponent b ≤ b.significand * 2 ^ b.exponent := by
  have hlog : b.significand.log2 < 53 := (Nat.log2_lt hm.ne').2 hm'
  have hx : (2 : ℚ) ^ ((b.significand.log2 : ℤ) + b.exponent) ≤ b.significand * 2 ^ b.exponent := by
    rw [zpow_add₀ two_ne_zero, zpow_natCast]
    gcongr
    exact_mod_cast Nat.log2_self_le hm.ne'
  unfold decimalExponent
  simp only [compareDecBin_eq, Nat.cast_one, one_mul, bne_iff_ne, ne_eq, compare_gt_iff_gt,
    beq_iff_eq]
  split
  · -- the guess one up is not above the value
    rename_i h
    exact not_lt.1 h
  · split
    · -- the guess is above the value, so the value is at least the power one down
      exact (ten_zpow_guess_le _ (by omega) (by omega)).trans hx
    · rename_i h
      exact not_lt.1 h

/-! ### The digit grids -/

/-- `gridFloor b k` is the point of the grid `c · 10^k` at or below the value of `b`, and says
whether the value lies on it. -/
theorem gridFloor_spec (b : Binary64) (k : ℤ) :
    ((gridFloor b k).1 : ℚ) * 10 ^ k ≤ b.significand * 2 ^ b.exponent ∧
      (b.significand : ℚ) * 2 ^ b.exponent < ((gridFloor b k).1 + 1) * 10 ^ k ∧
      ((gridFloor b k).2 = true ↔ ((gridFloor b k).1 : ℚ) * 10 ^ k = b.significand * 2 ^ b.exponent) := by
  unfold gridFloor
  simp only [Nat.pow_eq, beq_iff_eq]
  generalize hn : b.significand * 2 ^ b.exponent.toNat * 10 ^ (-k).toNat = n
  generalize hd : 2 ^ (-b.exponent).toNat * 10 ^ k.toNat = d
  have hdpos : 0 < d := by rw [← hd]; positivity
  have hdq : (0 : ℚ) < d := by exact_mod_cast hdpos
  have hs : (0 : ℚ) < 10 ^ k := by positivity
  -- the value is `n / d` grid steps
  have hval : (b.significand : ℚ) * 2 ^ b.exponent = n / d * 10 ^ k := by
    rw [← hn, ← hd]
    push_cast
    rw [← zpow_mul_zpow_neg_toNat 2 (by norm_num) b.exponent,
      ← zpow_mul_zpow_neg_toNat 10 (by norm_num) k]
    field_simp
  have hsplit : (d : ℚ) * (n / d : ℕ) + (n % d : ℕ) = n := by exact_mod_cast Nat.div_add_mod n d
  have hR : ((n % d : ℕ) : ℚ) < d := by exact_mod_cast Nat.mod_lt n hdpos
  have hR0 : (0 : ℚ) ≤ (n % d : ℕ) := by positivity
  rw [hval]
  refine ⟨?_, ?_, ?_⟩
  · rw [mul_le_mul_iff_of_pos_right hs, le_div_iff₀ hdq]; linarith
  · rw [mul_lt_mul_iff_of_pos_right hs, div_lt_iff₀ hdq]; linarith
  · rw [mul_left_inj' hs.ne', eq_div_iff hdq.ne']
    constructor
    · intro h; rw [h] at hsplit; push_cast at hsplit; linarith
    · intro h
      have : ((n % d : ℕ) : ℚ) = 0 := by linarith
      exact_mod_cast this

/-- The rounding interval of a nonzero float by its ends: a half of a unit of the last place
above the value, a half or (at a power of two above the least exponent) a quarter below, the
ends included for an even significand. -/
theorem inInterval_iff {b : Binary64} (hm : 0 < b.significand) (v : ℚ) :
    InInterval b v ↔
      (((b.significand : ℚ) - if b.significand = 2 ^ 52 ∧ b.exponent > -1074 then 1 / 4 else 1 / 2) *
          2 ^ b.exponent < v ∨
        (b.significand % 2 = 0 ∧ v = ((b.significand : ℚ) -
          if b.significand = 2 ^ 52 ∧ b.exponent > -1074 then 1 / 4 else 1 / 2) * 2 ^ b.exponent)) ∧
      (v < (b.significand + 1 / 2) * 2 ^ b.exponent ∨
        (b.significand % 2 = 0 ∧ v = (b.significand + 1 / 2) * 2 ^ b.exponent)) := by
  have hclosed : (interval b).closed = true ↔ b.significand % 2 = 0 := by simp [interval]
  have hhigh : ((interval b).high : ℚ) * 2 ^ (b.exponent - 2) =
      (b.significand + 1 / 2) * 2 ^ b.exponent := by
    rw [mul_unit_eq]; simp only [interval]; push_cast; ring
  have hlow : ((interval b).low : ℚ) * 2 ^ (b.exponent - 2) = ((b.significand : ℚ) -
      if b.significand = 2 ^ 52 ∧ b.exponent > -1074 then 1 / 4 else 1 / 2) * 2 ^ b.exponent := by
    rw [mul_unit_eq]
    simp only [interval, Nat.pow_eq]
    split <;> (rw [Nat.cast_sub (by omega)]; push_cast; ring)
  unfold InInterval
  rw [hhigh, hlow, hclosed]

/-- A point that `tryGrid` offers is positive and reads back. -/
theorem readsBack_of_tryGrid {b : Binary64} {e : ℤ} {n c : ℕ} {k : ℤ}
    (h : tryGrid b e n = some (c, k)) : 0 < c ∧ readsBack b c k = true := by
  unfold tryGrid at h
  rcases hg : gridFloor b (e - n + 1) with ⟨lo, exact⟩
  simp only [hg, Bool.and_eq_true, decide_eq_true_eq, Bool.not_eq_true'] at h
  -- every point offered passed its own test
  split at h
  · rename_i hok
    split at h <;> simp only [Option.some.injEq, Prod.mk.injEq] at h <;> obtain ⟨rfl, rfl⟩ := h
    · exact hok.1
    · exact ⟨by omega, hok.2.2⟩
    · split
      · exact hok.1
      · exact ⟨by omega, hok.2.2⟩
  · split at h
    · rename_i hlo
      simp only [Option.some.injEq, Prod.mk.injEq] at h
      obtain ⟨rfl, rfl⟩ := h
      exact hlo
    · split at h
      · rename_i hhi
        simp only [Option.some.injEq, Prod.mk.injEq] at h
        obtain ⟨rfl, rfl⟩ := h
        exact ⟨by omega, hhi.2⟩
      · cases h

/-- Seventeen digits always suffice: when `10^e` is at most the value, the grid of `10^(e-16)`
has a point next to the value in its rounding interval, since its steps are narrower than the
interval. -/
theorem tryGrid_seventeen (b : Binary64) {e : ℤ} (hm : 0 < b.significand)
    (hm' : b.significand < 2 ^ 53) (he : (10 : ℚ) ^ e ≤ b.significand * 2 ^ b.exponent) :
    tryGrid b e 17 ≠ none := by
  have hk : e - ((17 : ℕ) : ℤ) + 1 = e - 16 := by push_cast; ring
  obtain ⟨h1, h2, h3⟩ := gridFloor_spec b (e - 16)
  rcases hg : gridFloor b (e - 16) with ⟨lo, exact⟩
  rw [hg] at h1 h2 h3
  dsimp only at h1 h2 h3
  generalize hgap : (if b.significand = 2 ^ 52 ∧ b.exponent > -1074 then (1 : ℚ) / 4 else 1 / 2) = gap
  have hu : (0 : ℚ) < 2 ^ b.exponent := by positivity
  have hs : (0 : ℚ) < 10 ^ (e - 16) := by positivity
  have hs16 : (10 : ℚ) ^ (e - 16) * 10 ^ 16 = 10 ^ e := by
    rw [← zpow_natCast, ← zpow_add₀ (by norm_num)]; congr 1; push_cast; ring
  have hmq : (b.significand : ℚ) < 2 ^ 53 := by exact_mod_cast hm'
  -- the grid steps are narrower than the interval
  have hwidth : (10 : ℚ) ^ (e - 16) < (gap + 1 / 2) * 2 ^ b.exponent := by
    have hstep : (10 : ℚ) ^ (e - 16) * 10 ^ 16 ≤ b.significand * 2 ^ b.exponent := by rwa [hs16]
    rw [← hgap]
    split
    · rename_i hb
      rw [hb.1] at hstep
      push_cast at hstep
      nlinarith
    · nlinarith
  -- the floor point is at least `10^16`, so positive
  have hlo : 0 < lo := by
    have : (10 : ℚ) ^ 16 < lo + 1 := by
      have : (10 : ℚ) ^ (e - 16) * 10 ^ 16 < (lo + 1) * 10 ^ (e - 16) := by rw [hs16]; linarith
      nlinarith
    have : (10 ^ 16 : ℕ) < lo + 1 := by exact_mod_cast this
    omega
  have hmpos : (0 : ℚ) < b.significand := by exact_mod_cast hm
  have hgap0 : 0 < gap := by rw [← hgap]; split <;> norm_num
  have hok : (lo > 0 ∧ readsBack b lo (e - 16) = true) ∨
      (exact = false ∧ readsBack b (lo + 1) (e - 16) = true) := by
    simp only [readsBack_iff, inInterval_iff hm, hgap]
    by_cases hA : (b.significand - gap) * 2 ^ b.exponent < lo * 10 ^ (e - 16) ∨
        (b.significand % 2 = 0 ∧ (lo : ℚ) * 10 ^ (e - 16) = (b.significand - gap) * 2 ^ b.exponent)
    · -- the floor point is inside
      refine .inl ⟨hlo, hA, .inl ?_⟩
      nlinarith
    · -- the floor point is below the interval, and the next one inside
      obtain ⟨hA1, -⟩ := not_or.1 hA
      rw [not_lt] at hA1
      have hexact : exact = false := by
        cases exact
        · rfl
        · have := h3.1 rfl; nlinarith
      refine .inr ⟨hexact, .inl ?_, .inl ?_⟩
      · push_cast; nlinarith
      · push_cast; nlinarith
  unfold tryGrid
  rw [hk]
  simp only [hg, Bool.and_eq_true, decide_eq_true_eq, Bool.not_eq_true']
  split
  · split <;> simp
  · split
    · simp
    · split
      · simp
      · rename_i h₁ h₂ h₃
        rcases hok with hok | hok
        · exact absurd hok h₂
        · exact absurd hok h₃

/-- Dropping trailing zeros keeps the value and a positive significand. -/
theorem trimZeros_spec (c : ℕ) (k : ℤ) (fuel : ℕ) (hc : 0 < c) :
    0 < (trimZeros c k fuel).1 ∧
      ((trimZeros c k fuel).1 : ℚ) * 10 ^ (trimZeros c k fuel).2 = c * 10 ^ k := by
  induction fuel generalizing c k with
  | zero => exact ⟨hc, rfl⟩
  | succ fuel ih =>
    unfold trimZeros
    split
    · rename_i h
      obtain ⟨h1, h2⟩ := ih (c / 10) (k + 1) (by omega)
      refine ⟨h1, ?_⟩
      have hc10 : ((c / 10 : ℕ) : ℚ) * 10 = c := by
        exact_mod_cast Nat.div_mul_cancel (Nat.dvd_of_mod_eq_zero h.2)
      rw [h2, zpow_add_one₀ (by norm_num), ← hc10]
      ring
    · exact ⟨hc, rfl⟩

/-- The digits of a positive float read back: their value lies in its rounding interval. -/
theorem digits_spec (b : Binary64) (hm : 0 < b.significand) (hm' : b.significand < 2 ^ 53)
    (hq1 : -1074 ≤ b.exponent) (hq2 : b.exponent ≤ 971) :
    0 < (digits b).1 ∧ InInterval b ((digits b).1 * 10 ^ (digits b).2) := by
  have he := decimalExponent_le b hm hq1 hq2 hm'
  -- the search finds a grid, since the seventeenth one always has a point
  have hfound : ∃ p, (List.range 17).findSome? (fun i => tryGrid b (decimalExponent b) (i + 1)) =
      some p := by
    rcases h : (List.range 17).findSome? (fun i => tryGrid b (decimalExponent b) (i + 1)) with
      _ | p
    · exact absurd (List.findSome?_eq_none_iff.1 h 16 (by simp))
        (tryGrid_seventeen b hm hm' he)
    · exact ⟨p, rfl⟩
  obtain ⟨⟨c, k⟩, hp⟩ := hfound
  obtain ⟨i, -, hi⟩ := List.exists_of_findSome?_eq_some hp
  obtain ⟨hc, hread⟩ := readsBack_of_tryGrid hi
  obtain ⟨h1, h2⟩ := trimZeros_spec c k 20 hc
  unfold digits
  simp only [hp]
  exact ⟨h1, by rw [h2]; exact (readsBack_iff b c k).1 hread⟩

end OperandLifecycle.Number.Shortest
