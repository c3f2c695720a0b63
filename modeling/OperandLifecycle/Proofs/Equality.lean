import Mathlib
import OperandLifecycle.Json.Path
/-!
# Equality of keys

The caches and the lookups of this library compare keys with `Value.equiv`: numbers by value
whatever their kind, a NaN unequal to everything. On hashable values this is the equality of
one key per value (`Value.equiv_iff_key`): nothing, a text, or a number by its exact value on
the extended real line. So it is symmetric and transitive there (`Value.equiv_symm`,
`Value.equiv_trans`). The tables of the store hold keys, where the one NaN finds itself
(`Value.heldEquiv`); that equality is an equivalence on hashable values, which is what the laws
of tables rest on.

The exact value of a float (`Binary64.exact`) is the rational its bits stand for when it is
finite, an end of the line for an infinity and none for a NaN. Two floats are equal exactly
when their exact values are (`Binary64.beq_iff_exact`), and an integer equals a finite float
exactly when `Binary64.compareInt` says so (`Binary64.compareInt_eq_iff`).

## Shape of the proof

Float equality is decided on the unpacked form of the core library's model of floats. Every
float unpacks to a NaN, an infinity, a zero or a finite number whose significand and exponent
are those `Binary64.ofFloat` reads (`Binary64.exact_cases`). Those parts are canonical: the
significand is below `2^53`, and at least `2^52` unless the exponent is the least one, so two
nonzero floats of one value have the same parts (`Binary64.canonical_unique`).
-/

namespace OperandLifecycle.Number.Binary64

open Float.Model UnpackedFloat

/-! ### The parts of a float -/

/-- The fraction field of a float's bits. -/
def fraction (x : Float) : Nat := x.toBits.toNat % 2 ^ 52

theorem ofFloat_eq (x : Float) : ofFloat x =
    if exponentField x = 0 then ⟨x.toBits.toNat >>> 63 == 1, fraction x, -1074⟩
    else ⟨x.toBits.toNat >>> 63 == 1, fraction x + 2 ^ 52, (exponentField x : Int) - 1075⟩ :=
  rfl

theorem significand_eq (x : Float) : (ofFloat x).significand =
    if exponentField x = 0 then fraction x else fraction x + 2 ^ 52 := by
  rw [ofFloat_eq]; split <;> rfl

theorem exponent_eq (x : Float) : (ofFloat x).exponent =
    if exponentField x = 0 then -1074 else (exponentField x : Int) - 1075 := by
  rw [ofFloat_eq]; split <;> rfl

theorem isNaN_eq (x : Float) : isNaN x = (exponentField x == 2047 && fraction x != 0) := rfl

theorem fraction_lt (x : Float) : fraction x < 2 ^ 52 := Nat.mod_lt _ (by decide)

theorem significand_lt (x : Float) : (ofFloat x).significand < 2 ^ 53 := by
  have := fraction_lt x
  rw [significand_eq]; split <;> omega

theorem exponent_ge (x : Float) : -1074 ≤ (ofFloat x).exponent := by
  rw [exponent_eq]; split <;> omega

/-- Above the least exponent a float is normal. -/
theorem normal_of_exponent_gt (x : Float) (h : -1074 < (ofFloat x).exponent) :
    2 ^ 52 ≤ (ofFloat x).significand := by
  rw [exponent_eq] at h
  rw [significand_eq]
  split at h <;> simp_all

theorem significand_eq_zero_iff (x : Float) :
    (ofFloat x).significand = 0 ↔ exponentField x = 0 ∧ fraction x = 0 := by
  rw [significand_eq]; split <;> simp_all

/-! ### Exact values -/

/-- The rational number a finite binary64 number stands for. -/
def toRat (b : Binary64) : ℚ := (if b.negative then -1 else 1) * b.significand * 2 ^ b.exponent

theorem toRat_eq (b : Binary64) :
    toRat b = ((if b.negative then -(b.significand : Int) else b.significand : Int) : ℚ) *
      2 ^ b.exponent := by
  simp only [toRat]; split <;> simp

theorem toRat_eq_zero_iff (b : Binary64) : toRat b = 0 ↔ b.significand = 0 := by
  simp only [toRat]
  split <;> simp [zpow_ne_zero]

/-- Two canonical pairs of significand and exponent of one magnitude are the same pair: a
significand below `2^53`, normal (at least `2^52`) unless the exponent is the least one. -/
theorem canonical_unique {m n : ℕ} {e f : ℤ} (hm : m < 2 ^ 53) (hn : n < 2 ^ 53)
    (he : -1074 ≤ e) (hf : -1074 ≤ f) (hme : -1074 < e → 2 ^ 52 ≤ m)
    (hnf : -1074 < f → 2 ^ 52 ≤ n) (h : (m : ℚ) * 2 ^ e = n * 2 ^ f) : m = n ∧ e = f := by
  wlog hef : e ≤ f generalizing m n e f
  · obtain ⟨h1, h2⟩ := this hn hm hf he hnf hme h.symm (by omega)
    exact ⟨h1.symm, h2.symm⟩
  obtain ⟨k, rfl⟩ : ∃ k : ℕ, f = e + k := ⟨(f - e).toNat, by omega⟩
  have hscaled : m = n * 2 ^ k := by
    have h2 : (2 : ℚ) ^ e ≠ 0 := zpow_ne_zero _ (by norm_num)
    rw [zpow_add₀ (by norm_num), zpow_natCast, ← mul_assoc, mul_right_comm] at h
    exact_mod_cast mul_right_cancel₀ h2 h
  rcases Nat.eq_zero_or_pos k with hk | hk
  · subst hk
    simp at hscaled
    exact ⟨hscaled, by simp⟩
  · -- a larger exponent makes `n` normal, and then `n · 2^k` no longer fits in 53 bits
    have : 2 ^ 52 ≤ n := hnf (by omega)
    have : 2 ≤ 2 ^ k := Nat.le_self_pow (by omega) 2
    have : 2 ^ 53 ≤ m := by
      rw [hscaled]
      calc 2 ^ 53 = 2 ^ 52 * 2 := by norm_num
        _ ≤ n * 2 ^ k := Nat.mul_le_mul ‹_› ‹_›
    omega

/-- Nonzero floats of one value have the same parts. -/
theorem ofFloat_eq_of_toRat_eq {x y : Float} (hx : (ofFloat x).significand ≠ 0)
    (hy : (ofFloat y).significand ≠ 0) (h : toRat (ofFloat x) = toRat (ofFloat y)) :
    ofFloat x = ofFloat y := by
  have hsign : ∀ b : Binary64, b.significand ≠ 0 → (toRat b < 0 ↔ b.negative = true) := by
    intro b hb
    have hpos : (0 : ℚ) < b.significand * 2 ^ b.exponent :=
      mul_pos (by exact_mod_cast Nat.pos_of_ne_zero hb) (zpow_pos (by norm_num) _)
    simp only [toRat, mul_assoc]
    cases b.negative <;> simp <;> linarith
  have hneg : (ofFloat x).negative = (ofFloat y).negative := by
    rw [Bool.eq_iff_iff, ← hsign _ hx, ← hsign _ hy, h]
  have hmag : ((ofFloat x).significand : ℚ) * 2 ^ (ofFloat x).exponent =
      (ofFloat y).significand * 2 ^ (ofFloat y).exponent := by
    simp only [toRat, hneg, mul_assoc] at h
    split at h <;> linarith
  obtain ⟨hm, he⟩ := canonical_unique (significand_lt x) (significand_lt y) (exponent_ge x)
    (exponent_ge y) (normal_of_exponent_gt x) (normal_of_exponent_gt y) hmag
  cases hxb : ofFloat x
  cases hyb : ofFloat y
  simp_all

theorem intPow_eq (a : Int) (k : Nat) : Int.pow a k = a ^ k := rfl

/-- An integer equals a finite float exactly when it is the float's rational. -/
theorem compareInt_eq_iff (n : Int) (x : Float) :
    compareInt n x = .eq ↔ (n : ℚ) = toRat (ofFloat x) := by
  rw [toRat_eq]
  simp only [compareInt, intPow_eq]
  generalize (if (ofFloat x).negative then -((ofFloat x).significand : Int)
    else ((ofFloat x).significand : Int)) = v
  split
  · obtain ⟨k, hk⟩ : ∃ k : ℕ, (ofFloat x).exponent = k :=
      ⟨(ofFloat x).exponent.toNat, by omega⟩
    rw [hk, zpow_natCast, compare_eq_iff_eq]
    simp only [Int.toNat_natCast]
    constructor
    · intro h; rw [h]; push_cast; ring
    · intro h; exact_mod_cast h
  · -- a negative exponent scales the integer instead
    obtain ⟨k, hk⟩ : ∃ k : ℕ, (ofFloat x).exponent = -k :=
      ⟨(-(ofFloat x).exponent).toNat, by omega⟩
    rw [hk, compare_eq_iff_eq]
    simp only [neg_neg, Int.toNat_natCast, zpow_neg, zpow_natCast]
    have h2 : (2 : ℚ) ^ k ≠ 0 := pow_ne_zero _ (by norm_num)
    constructor
    · intro h; rw [← h]; push_cast; field_simp
    · intro h
      have : (n : ℚ) * 2 ^ k = v := by rw [h]; field_simp
      exact_mod_cast this

/-! ### The unpacked form -/

/-- The sign of a float, as its unpacked form spells it. -/
def sign (x : Float) : Sign := if (ofFloat x).negative then .negative else .positive

theorem sign_eq_sign_iff (x y : Float) :
    sign x = sign y ↔ (ofFloat x).negative = (ofFloat y).negative := by
  unfold sign
  cases (ofFloat x).negative <;> cases (ofFloat y).negative <;> simp

theorem toBits_eq (x : Float) : x.toBits = x.toModel.toBits := rfl

theorem unpackExponent_toNat (x : Float) :
    (@unpackExponent Format.binary64 x.toModel.toBits.toBitVec).toNat = exponentField x := by
  simp [unpackExponent, exponentField, toBits_eq]

theorem unpackMantissa_toNat (x : Float) :
    (@unpackMantissa Format.binary64 x.toModel.toBits.toBitVec).toNat = fraction x := by
  simp [unpackMantissa, fraction, toBits_eq]

theorem unpackSign_eq (x : Float) :
    Sign.ofBitVec (@unpackSign Format.binary64 x.toModel.toBits.toBitVec) = sign x := by
  have hlt : x.toBits.toNat < 2 ^ 64 := x.toBits.toNat_lt
  have hs : x.toBits.toNat >>> 63 < 2 := by
    rw [Nat.shiftRight_eq_div_pow]; omega
  have hneg : (ofFloat x).negative = (x.toBits.toNat >>> 63 == 1) := by
    rw [ofFloat_eq]; split <;> rfl
  simp only [Sign.ofBitVec, unpackSign, BitVec.toNat_eq, BitVec.toNat_cast,
    BitVec.extractLsb_toNat, ← toBits_eq, sign, hneg]
  rcases (by omega : x.toBits.toNat >>> 63 = 0 ∨ x.toBits.toNat >>> 63 = 1) with h | h <;>
    simp [h]

theorem unpackExponent_eq_allOnes_iff (x : Float) :
    @unpackExponent Format.binary64 x.toModel.toBits.toBitVec = -1#11 ↔
      exponentField x = 2047 := by
  rw [BitVec.toNat_eq, unpackExponent_toNat]; rfl

theorem unpackExponent_eq_zero_iff (x : Float) :
    @unpackExponent Format.binary64 x.toModel.toBits.toBitVec = 0#11 ↔ exponentField x = 0 := by
  rw [BitVec.toNat_eq, unpackExponent_toNat]; rfl

theorem unpackMantissa_eq_zero_iff (x : Float) :
    @unpackMantissa Format.binary64 x.toModel.toBits.toBitVec = 0#52 ↔ fraction x = 0 := by
  rw [BitVec.toNat_eq, unpackMantissa_toNat]; rfl

/-- A float whose exponent field is all ones unpacks to a NaN or an infinity. -/
theorem unpack_of_isFinite_eq_false {x : Float} (hf : isFinite x = false) :
    x.toModel.unpack = if isNaN x then .notANumber else .infinity (sign x) := by
  have hE : exponentField x = 2047 := by simpa [isFinite] using hf
  simp only [Float.Model.unpack, UnpackedFloat.unpack]
  rw [if_pos ((unpackExponent_eq_allOnes_iff x).2 hE), ← unpackSign_eq]
  by_cases hM : fraction x = 0
  · rw [if_pos ((unpackMantissa_eq_zero_iff x).2 hM)]
    simp [isNaN_eq, hE, hM]
  · rw [if_neg ((unpackMantissa_eq_zero_iff x).not.2 hM)]
    simp [isNaN_eq, hE, hM]

/-- A finite float of significand zero unpacks to a zero. -/
theorem unpack_of_significand_eq_zero {x : Float} (hf : isFinite x = true)
    (hm : (ofFloat x).significand = 0) : x.toModel.unpack = .zero (sign x) := by
  obtain ⟨hE0, hM⟩ := (significand_eq_zero_iff x).1 hm
  have hE : exponentField x ≠ 2047 := by simpa [isFinite] using hf
  simp only [Float.Model.unpack, UnpackedFloat.unpack]
  rw [if_neg ((unpackExponent_eq_allOnes_iff x).not.2 hE), if_pos ((unpackExponent_eq_zero_iff x).2 hE0),
    dif_pos ((unpackMantissa_eq_zero_iff x).2 hM), unpackSign_eq]

/-- A finite float of nonzero significand unpacks to the parts `ofFloat` reads. -/
theorem unpack_of_significand_ne_zero {x : Float} (hf : isFinite x = true)
    (hm : (ofFloat x).significand ≠ 0) :
    x.toModel.unpack = .finite (sign x) (ofFloat x).significand (ofFloat x).exponent
      (Nat.pos_of_ne_zero hm) := by
  have hE : exponentField x ≠ 2047 := by simpa [isFinite] using hf
  have he := unpackExponent_toNat x
  have hmt := unpackMantissa_toNat x
  have hsig := significand_eq x
  have hexp := exponent_eq x
  simp only [Float.Model.unpack, UnpackedFloat.unpack]
  rw [if_neg ((unpackExponent_eq_allOnes_iff x).not.2 hE)]
  by_cases hE0 : exponentField x = 0
  · -- subnormal: the fraction is the significand, at the least exponent
    have hM : fraction x ≠ 0 := fun h => hm (by rw [hsig, if_pos hE0, h])
    rw [if_pos ((unpackExponent_eq_zero_iff x).2 hE0), dif_neg ((unpackMantissa_eq_zero_iff x).not.2 hM)]
    simp only [unpackSign_eq, hmt, he, hE0, hsig, hexp, if_true]
    rfl
  · -- normal: the hidden bit is set above the fraction
    rw [if_neg ((unpackExponent_eq_zero_iff x).not.2 hE0)]
    have happ : (1#1 ++ @unpackMantissa Format.binary64 x.toModel.toBits.toBitVec).toNat =
        fraction x + 2 ^ 52 := by
      rw [BitVec.toNat_append, hmt, ← Nat.shiftLeft_add_eq_or_of_lt (fraction_lt x)]
      simp [Nat.add_comm]
    simp only [unpackSign_eq, happ, he, hE0, hsig, hexp, if_false]
    congr 1

/-- When two unpacked floats compare equal: two zeros, two infinities of one sign, or two
finite numbers of the same parts. -/
theorem unpacked_compare_eq (a b : UnpackedFloat) :
    a.compare b = some .eq ↔
      (∃ s t, a = .zero s ∧ b = .zero t) ∨ (∃ s, a = .infinity s ∧ b = .infinity s) ∨
      (∃ s m e h h', a = .finite s m e h ∧ b = .finite s m e h') := by
  rcases a with (s | _ | s | ⟨s, m, e, h⟩) <;> rcases b with (t | _ | t | ⟨t, n, f, h'⟩) <;>
    (try cases s) <;> (try cases t) <;>
    simp [UnpackedFloat.compare, Ordering.then_eq_eq, Ordering.swap_eq_eq]
  case infinity.infinity.negative.negative => rfl
  case infinity.infinity.positive.positive => rfl
  all_goals
    constructor
    · rintro ⟨rfl, rfl⟩
      exact ⟨rfl, h, rfl⟩
    · rintro ⟨rfl, -, rfl⟩
      exact ⟨rfl, rfl⟩

/-! ### Equality of floats -/

/-- The exact value of a float on the extended real line: its rational when it is finite, an
end of the line for an infinity, and none for a NaN. -/
noncomputable def exact (x : Float) : Option EReal :=
  if isNaN x then none
  else if isFinite x then some ((toRat (ofFloat x) : ℝ) : EReal)
  else some (if (ofFloat x).negative then ⊥ else ⊤)

theorem isNaN_eq_false_of_isFinite {x : Float} (hf : isFinite x = true) : isNaN x = false := by
  simp only [isFinite, bne_iff_ne, ne_eq] at hf
  simp [isNaN, hf]

/-- A float is a NaN, an infinity of either sign, a zero, or a nonzero finite number; each
with its unpacked form and its exact value. -/
theorem exact_cases (x : Float) :
    (x.toModel.unpack = .notANumber ∧ exact x = none) ∨
    (x.toModel.unpack = .infinity .negative ∧ exact x = some ⊥) ∨
    (x.toModel.unpack = .infinity .positive ∧ exact x = some ⊤) ∨
    ((∃ s, x.toModel.unpack = .zero s) ∧ exact x = some 0) ∨
    (toRat (ofFloat x) ≠ 0 ∧ exact x = some ((toRat (ofFloat x) : ℝ) : EReal) ∧
      ∃ h, x.toModel.unpack = .finite (sign x) (ofFloat x).significand (ofFloat x).exponent h) := by
  cases hf : isFinite x
  · have hu := unpack_of_isFinite_eq_false hf
    cases hn : isNaN x
    · rw [hn, if_neg (by simp), sign] at hu
      cases hneg : (ofFloat x).negative
      · exact .inr (.inr (.inl ⟨by simpa [hneg] using hu, by simp [exact, hn, hf, hneg]⟩))
      · exact .inr (.inl ⟨by simpa [hneg] using hu, by simp [exact, hn, hf, hneg]⟩)
    · exact .inl ⟨by simpa [hn] using hu, by simp [exact, hn]⟩
  · have hn := isNaN_eq_false_of_isFinite hf
    by_cases hm : (ofFloat x).significand = 0
    · refine .inr (.inr (.inr (.inl ⟨⟨_, unpack_of_significand_eq_zero hf hm⟩, ?_⟩)))
      simp [exact, hn, hf, (toRat_eq_zero_iff _).2 hm]
    · exact .inr (.inr (.inr (.inr ⟨(toRat_eq_zero_iff _).not.2 hm, by simp [exact, hn, hf],
        _, unpack_of_significand_ne_zero hf hm⟩)))

/-- Nonzero finite floats have one value exactly when they have the same parts. -/
theorem toRat_eq_iff {x y : Float} (hx : toRat (ofFloat x) ≠ 0) (hy : toRat (ofFloat y) ≠ 0) :
    toRat (ofFloat x) = toRat (ofFloat y) ↔ sign x = sign y ∧
      (ofFloat x).significand = (ofFloat y).significand ∧
      (ofFloat x).exponent = (ofFloat y).exponent := by
  rw [sign_eq_sign_iff]
  constructor
  · intro h
    have := ofFloat_eq_of_toRat_eq ((toRat_eq_zero_iff _).not.1 hx)
      ((toRat_eq_zero_iff _).not.1 hy) h
    exact ⟨congrArg Binary64.negative this, congrArg Binary64.significand this,
      congrArg Binary64.exponent this⟩
  · rintro ⟨h1, h2, h3⟩
    simp only [toRat, h1, h2, h3]

theorem float_beq_eq (x y : Float) :
    (x == y) = (x.toModel.unpack.compare y.toModel.unpack == some .eq) := rfl

/-- Two floats are equal exactly when they have one exact value: a NaN equals nothing, the
two zeros are equal, and every other float equals only itself. -/
theorem beq_iff_exact (x y : Float) :
    (x == y) = true ↔ ∃ v, exact x = some v ∧ exact y = some v := by
  rw [float_beq_eq, beq_iff_eq, unpacked_compare_eq]
  -- five classes on each side; only two nonzero finite floats need their parts compared
  rcases exact_cases x with ⟨hu, hv⟩ | ⟨hu, hv⟩ | ⟨hu, hv⟩ | ⟨⟨s, hu⟩, hv⟩ | ⟨hx, hv, hp, hu⟩ <;>
  rcases exact_cases y with ⟨hu', hv'⟩ | ⟨hu', hv'⟩ | ⟨hu', hv'⟩ | ⟨⟨t, hu'⟩, hv'⟩ |
    ⟨hy, hv', hp', hu'⟩ <;>
  simp only [hu, hu', hv, hv'] <;> simp_all [toRat_eq_iff, @eq_comm EReal 0]

/-- A float has a real exact value exactly when it is finite, and then it is its rational. -/
theorem exact_eq_coe_iff (x : Float) (r : ℝ) :
    exact x = some (r : EReal) ↔ isFinite x = true ∧ r = toRat (ofFloat x) := by
  unfold exact
  by_cases hn : isNaN x = true
  · have : isFinite x = false := by
      simp only [isNaN, Bool.and_eq_true, beq_iff_eq] at hn
      simp [isFinite, hn.1]
    simp [hn, this]
  · by_cases hf : isFinite x = true
    · simp [hn, hf, eq_comm]
    · simp only [Bool.not_eq_true] at hn hf
      cases (ofFloat x).negative <;> simp [hn, hf]

end OperandLifecycle.Number.Binary64

namespace OperandLifecycle.Json.Value

open Number

/-! ### Keys -/

/-- The exact value of a number on the extended real line; none for a NaN. -/
noncomputable def Num.exact : Num → Option EReal
  | .int n => some ((n : ℝ) : EReal)
  | .float x => Binary64.exact x

theorem Num.eq_int_float_iff (n : Int) (y : Float) :
    (Num.int n).eq (.float y) = true ↔ (Num.float y).exact = some ((n : ℝ) : EReal) := by
  simp only [Num.eq, Num.exact, Bool.and_eq_true, beq_iff_eq, Binary64.compareInt_eq_iff,
    Binary64.exact_eq_coe_iff]
  norm_cast

/-- Two numbers are equal exactly when they have one exact value on the extended real line. -/
theorem Num.eq_iff_exact (a b : Num) :
    a.eq b = true ↔ ∃ v, a.exact = some v ∧ b.exact = some v := by
  cases a with
  | int n =>
    cases b with
    | int m =>
      simp only [Num.eq, Num.exact, beq_iff_eq, Option.some.injEq, exists_eq_left',
        EReal.coe_eq_coe_iff, Int.cast_inj]
      exact eq_comm
    | float y =>
      rw [Num.eq_int_float_iff]
      simp [Num.exact, eq_comm]
  | float x =>
    cases b with
    | int m =>
      rw [show (Num.float x).eq (.int m) = (Num.int m).eq (.float x) from rfl,
        Num.eq_int_float_iff]
      simp [Num.exact]
    | float y => exact Binary64.beq_iff_exact x y

/-- What a hashable value stands for under equality: nothing, a text, or a number by its exact
value. -/
inductive Key where
  | none
  | text (s : String)
  | number (v : EReal)

/-- The key of a value: a NaN, an array and an object have none. -/
noncomputable def key : Value → Option Key
  | .null => some .none
  | .str s => some (.text s)
  | v => v.num?.bind (fun n => n.exact.map Key.number)

/-- On hashable values, equality is equality of keys. -/
theorem equiv_iff_key {a b : Value} (ha : a.hashable = true) (hb : b.hashable = true) :
    a.equiv b = true ↔ ∃ k, a.key = some k ∧ b.key = some k := by
  cases a <;> cases b <;> simp_all [hashable, isObj, isArr, equiv, key, num?, Num.eq_iff_exact]
  case str.str => exact eq_comm

/-- A value a hashable one is equal to is hashable. -/
theorem hashable_of_equiv {a b : Value} (ha : a.hashable = true) (h : a.equiv b = true) :
    b.hashable = true := by
  cases a <;> cases b <;> simp_all [hashable, isObj, isArr, equiv, num?]

/-- A value equal to a hashable one is hashable. -/
theorem hashable_of_equiv_left {a b : Value} (hb : b.hashable = true) (h : a.equiv b = true) :
    a.hashable = true := by
  cases a <;> cases b <;> simp_all [hashable, isObj, isArr, equiv, num?]

theorem equiv_symm {a b : Value} (ha : a.hashable = true) (h : a.equiv b = true) :
    b.equiv a = true := by
  have hb := hashable_of_equiv ha h
  obtain ⟨k, h1, h2⟩ := (equiv_iff_key ha hb).1 h
  exact (equiv_iff_key hb ha).2 ⟨k, h2, h1⟩

theorem equiv_trans {a b c : Value} (ha : a.hashable = true) (hab : a.equiv b = true)
    (hbc : b.equiv c = true) : a.equiv c = true := by
  have hb := hashable_of_equiv ha hab
  have hc := hashable_of_equiv hb hbc
  obtain ⟨k, h1, h2⟩ := (equiv_iff_key ha hb).1 hab
  obtain ⟨k', h2', h3⟩ := (equiv_iff_key hb hc).1 hbc
  obtain rfl : k = k' := Option.some.inj (h2.symm.trans h2')
  exact (equiv_iff_key ha hc).2 ⟨k, h1, h3⟩

/-- Equal hashable values are equal to the same values. -/
theorem equiv_congr_left {a b : Value} (c : Value) (ha : a.hashable = true) (hab : a.equiv b = true) :
    a.equiv c = b.equiv c := by
  have hb := hashable_of_equiv ha hab
  cases h : b.equiv c
  · cases h' : a.equiv c
    · rfl
    · have := equiv_trans hb (equiv_symm ha hab) h'
      simp_all
  · exact equiv_trans ha hab h

/-- A value is equal to one of two equal hashable values exactly when it is equal to the other. -/
theorem equiv_congr_right (a : Value) {b c : Value} (hb : b.hashable = true)
    (hbc : b.equiv c = true) : a.equiv b = a.equiv c := by
  cases h : a.equiv b
  · cases h' : a.equiv c
    · rfl
    · have hc := hashable_of_equiv hb hbc
      have := equiv_trans (hashable_of_equiv_left hc h') h' (equiv_symm hb hbc)
      simp_all
  · exact (equiv_trans (hashable_of_equiv_left hb h) h hbc).symm

/-! ### Keys as a table holds them

A table holds the one NaN its reader makes, so a NaN key finds a NaN key: tables compare keys
with `Value.heldEquiv`. A NaN equals nothing under `equiv` (`Value.equiv_eq_false_of_isNaN_left`),
so on hashable values `heldEquiv` is an equivalence (`Value.heldEquiv_self`,
`Value.heldEquiv_symm`, `Value.heldEquiv_trans`): the NaN is one more class of keys.
-/

theorem exact_eq_none_iff (x : Float) : Binary64.exact x = none ↔ Binary64.isNaN x = true := by
  unfold Binary64.exact
  split
  · simp_all
  · split <;> simp_all

/-- A NaN is no number of either kind. -/
theorem Num.eq_float_of_isNaN {x : Float} (hx : Binary64.isNaN x = true) (b : Num) :
    (Num.float x).eq b = false := by
  cases h : (Num.float x).eq b
  · rfl
  · obtain ⟨v, hv, -⟩ := (Num.eq_iff_exact _ _).1 h
    simp [Num.exact, (exact_eq_none_iff x).2 hx] at hv

theorem Num.eq_float_right_of_isNaN {x : Float} (hx : Binary64.isNaN x = true) (a : Num) :
    a.eq (.float x) = false := by
  cases h : a.eq (.float x)
  · rfl
  · obtain ⟨v, -, hv⟩ := (Num.eq_iff_exact _ _).1 h
    simp [Num.exact, (exact_eq_none_iff x).2 hx] at hv

/-- A NaN equals nothing. -/
theorem equiv_eq_false_of_isNaN_left {a : Value} (h : a.isNaN = true) (b : Value) :
    a.equiv b = false := by
  cases a <;> simp only [isNaN, Bool.false_eq_true] at h
  rename_i x
  cases b <;> simp [equiv, num?, Num.eq_float_of_isNaN h]

theorem equiv_eq_false_of_isNaN_right (a : Value) {b : Value} (h : b.isNaN = true) :
    a.equiv b = false := by
  cases b <;> simp only [isNaN, Bool.false_eq_true] at h
  rename_i x
  cases a <;> simp [equiv, num?, Num.eq_float_right_of_isNaN h]

/-- Every hashable value but a NaN equals itself. -/
theorem equiv_self {a : Value} (ha : a.hashable = true) (hn : a.isNaN = false) :
    a.equiv a = true := by
  refine (equiv_iff_key ha ha).2 ?_
  cases a <;> simp_all [key, num?, Num.exact, hashable, isObj, isArr, isNaN]
  rename_i x
  cases h : Binary64.exact x
  · exact absurd ((exact_eq_none_iff x).1 h) (by simp [hn])
  · simp

theorem heldEquiv_iff {a b : Value} :
    a.heldEquiv b = true ↔ (a.isNaN = true ∧ b.isNaN = true) ∨ a.equiv b = true := by
  simp [heldEquiv]

theorem heldEquiv_self {a : Value} (ha : a.hashable = true) : a.heldEquiv a = true := by
  cases hn : a.isNaN
  · exact heldEquiv_iff.2 (.inr (equiv_self ha hn))
  · exact heldEquiv_iff.2 (.inl ⟨hn, hn⟩)

theorem hashable_of_heldEquiv {a b : Value} (ha : a.hashable = true) (h : a.heldEquiv b = true) :
    b.hashable = true := by
  rcases heldEquiv_iff.1 h with ⟨-, hb⟩ | h
  · cases b <;> simp_all [isNaN, hashable, isObj, isArr]
  · exact hashable_of_equiv ha h

theorem hashable_of_heldEquiv_left {a b : Value} (hb : b.hashable = true)
    (h : a.heldEquiv b = true) : a.hashable = true := by
  rcases heldEquiv_iff.1 h with ⟨ha, -⟩ | h
  · cases a <;> simp_all [isNaN, hashable, isObj, isArr]
  · exact hashable_of_equiv_left hb h

theorem heldEquiv_symm {a b : Value} (ha : a.hashable = true) (h : a.heldEquiv b = true) :
    b.heldEquiv a = true := by
  rcases heldEquiv_iff.1 h with ⟨hna, hnb⟩ | h
  · exact heldEquiv_iff.2 (.inl ⟨hnb, hna⟩)
  · exact heldEquiv_iff.2 (.inr (equiv_symm ha h))

theorem heldEquiv_trans {a b c : Value} (ha : a.hashable = true) (hab : a.heldEquiv b = true)
    (hbc : b.heldEquiv c = true) : a.heldEquiv c = true := by
  rcases heldEquiv_iff.1 hab with ⟨hna, hnb⟩ | hab
  · rcases heldEquiv_iff.1 hbc with ⟨-, hnc⟩ | hbc
    · exact heldEquiv_iff.2 (.inl ⟨hna, hnc⟩)
    · simp [equiv_eq_false_of_isNaN_left hnb] at hbc
  · rcases heldEquiv_iff.1 hbc with ⟨hnb, -⟩ | hbc
    · simp [equiv_eq_false_of_isNaN_right a hnb] at hab
    · exact heldEquiv_iff.2 (.inr (equiv_trans ha hab hbc))

theorem heldEquiv_congr_left {a b : Value} (c : Value) (ha : a.hashable = true)
    (hab : a.heldEquiv b = true) : a.heldEquiv c = b.heldEquiv c := by
  have hb := hashable_of_heldEquiv ha hab
  cases h : b.heldEquiv c
  · cases h' : a.heldEquiv c
    · rfl
    · have := heldEquiv_trans hb (heldEquiv_symm ha hab) h'
      simp_all
  · exact heldEquiv_trans ha hab h

theorem heldEquiv_congr_right (a : Value) {b c : Value} (hb : b.hashable = true)
    (hbc : b.heldEquiv c = true) : a.heldEquiv b = a.heldEquiv c := by
  cases h : a.heldEquiv b
  · cases h' : a.heldEquiv c
    · rfl
    · have hc := hashable_of_heldEquiv hb hbc
      have := heldEquiv_trans (hashable_of_heldEquiv_left hc h') h' (heldEquiv_symm hb hbc)
      simp_all
  · exact (heldEquiv_trans (hashable_of_heldEquiv_left hb h) h hbc).symm

end OperandLifecycle.Json.Value
