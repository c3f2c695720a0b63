import OperandLifecycle.Proofs.ShortestDigits
import OperandLifecycle.Json.Parse
/-!
# Numbers read back from their text

The reader takes a number apart into a sign, a whole part, a fraction and an exponent
(`scanSign`, `scanWhole`, `scanFraction`, `scanExponent`). A whole part as it is written
(`IsWhole`: `0`, or digits that do not start with `0`), followed by a point and digits or by an
exponent, scans back as those pieces (`scanNumber_fraction`, `scanNumber_exponent`,
`scanNumber_whole`), provided the text does not go on with a digit, a point or an exponent mark
(`EndsNumber`), as it does not before a separator, a closing bracket, a blank or the end.

Every layout of `Shortest.render` has one of these shapes, and reads as the decimal
`significand · 10^scale` that was laid out (`scansAsDecimal_layout`). That decimal lies in the
rounding interval of the float (`Shortest.digits_spec`), and `decimalFloat` rounds it back
(`decimalFloat_eq_of_inInterval`). So the text of every finite float reads back as that float
(`scanNumber_render`), and the text of an integer of at most `maxIntegerDigits` digits as that
integer (`scanNumber_toString_int`).
-/

namespace OperandLifecycle.Json.Parse
open Number Binary64

theorem digitsValue_eq (ds : List Char) : digitsValue ds = Nat.ofDigitChars 10 ds 0 := rfl

theorem digitsValue_append (a b : List Char) :
    digitsValue (a ++ b) = 10 ^ b.length * digitsValue a + digitsValue b := by
  rw [digitsValue_eq, digitsValue_eq, digitsValue_eq, Nat.ofDigitChars_append,
    Nat.ofDigitChars_eq_ofDigitChars_zero]

@[simp] theorem digitsValue_replicate_zero (n : ℕ) : digitsValue (List.replicate n '0') = 0 := by
  simp [digitsValue_eq]

@[simp] theorem digitsValue_toDigits (n : ℕ) : digitsValue (Nat.toDigits 10 n) = n :=
  Nat.ofDigitChars_ten_toDigits

/-- The text ends a number: it does not go on with a digit, a point or an exponent mark. -/
def EndsNumber (rest : List Char) : Prop :=
  ∀ c ∈ rest.head?, c.isDigit = false ∧ c ≠ '.' ∧ c ≠ 'e' ∧ c ≠ 'E'

theorem spanDigits_append {ds rest : List Char} (hds : ∀ d ∈ ds, d.isDigit = true)
    (hrest : ∀ c ∈ rest.head?, c.isDigit = false) : spanDigits (ds ++ rest) = (ds, rest) := by
  rw [spanDigits, List.takeWhile_append_of_pos hds, List.dropWhile_append_of_pos hds]
  cases rest with
  | nil => simp
  | cons c r =>
    have hc := hrest c rfl
    simp [hc]

theorem scanSign_of_ne {c : Char} (h : c ≠ '-') (r : List Char) :
    scanSign (c :: r) = (false, c :: r) := by
  simp [scanSign, h]

theorem scanSign_of_head {cs : List Char} (h : ∀ c ∈ cs.head?, c ≠ '-') :
    scanSign cs = (false, cs) := by
  cases cs with
  | nil => rfl
  | cons c r => exact scanSign_of_ne (h c rfl) r

theorem scanWhole_digits {d : Char} {ds rest : List Char} (hd : '1' ≤ d ∧ d ≤ '9')
    (hds : ∀ c ∈ ds, c.isDigit = true) (hrest : ∀ c ∈ rest.head?, c.isDigit = false) :
    scanWhole (d :: ds ++ rest) = some (d :: ds, rest) := by
  have hd0 : d ≠ '0' := by rintro rfl; exact absurd hd.1 (by decide)
  rw [List.cons_append, scanWhole.eq_2 d _ hd0, if_pos hd, spanDigits_append hds hrest]

theorem isDigit_of_nonzero {d : Char} (hd : '1' ≤ d ∧ d ≤ '9') : d.isDigit = true := by
  obtain ⟨h1, h2⟩ := hd
  simp only [Char.le_def, UInt32.le_iff_toNat_le] at h1 h2
  simp only [Char.isDigit, UInt32.le_iff_toNat_le, Bool.and_eq_true, decide_eq_true_eq, ge_iff_le]
  exact ⟨le_trans (by decide) h1, h2⟩

/-- The whole part of a number as it is written: `0`, or digits not starting with `0`. -/
def IsWhole (w : List Char) : Prop :=
  w = ['0'] ∨ ∃ d ds, w = d :: ds ∧ ('1' ≤ d ∧ d ≤ '9') ∧ ∀ c ∈ ds, c.isDigit = true

theorem IsWhole.digits {w : List Char} (hw : IsWhole w) : ∀ c ∈ w, c.isDigit = true := by
  rcases hw with rfl | ⟨d, ds, rfl, hd, hds⟩
  · intro c hc
    rw [List.mem_singleton.1 hc]
    rfl
  · intro c hc
    rcases List.mem_cons.1 hc with rfl | hc
    · exact isDigit_of_nonzero hd
    · exact hds c hc

theorem IsWhole.head_ne {w : List Char} (hw : IsWhole w) (r : List Char) :
    ∀ c ∈ (w ++ r).head?, c ≠ '-' := by
  rcases hw with rfl | ⟨d, ds, rfl, hd, -⟩
  · intro c hc
    simp only [List.cons_append, List.head?_cons, Option.mem_def, Option.some.injEq] at hc
    rw [← hc]
    decide
  · rintro c hc rfl
    simp only [List.cons_append, List.head?_cons, Option.mem_def, Option.some.injEq] at hc
    subst hc
    exact absurd hd.1 (by decide)

theorem scanWhole_of_isWhole {w rest : List Char} (hw : IsWhole w)
    (hrest : ∀ c ∈ rest.head?, c.isDigit = false) : scanWhole (w ++ rest) = some (w, rest) := by
  rcases hw with rfl | ⟨d, ds, rfl, hd, hds⟩
  · rfl
  · exact scanWhole_digits hd hds hrest

theorem scanFraction_point {d : Char} {ds rest : List Char} (hd : d.isDigit = true)
    (hds : ∀ c ∈ ds, c.isDigit = true) (hrest : ∀ c ∈ rest.head?, c.isDigit = false) :
    scanFraction ('.' :: d :: ds ++ rest) = (d :: ds, rest) := by
  simp [scanFraction, hd, spanDigits_append hds hrest]

theorem scanFraction_of_ne {cs : List Char} (h : ∀ c ∈ cs.head?, c ≠ '.') :
    scanFraction cs = ([], cs) := by
  unfold scanFraction
  split
  · exact absurd rfl (h '.' rfl)
  · rfl

theorem scanExponent_of_ne {cs : List Char} (h : ∀ c ∈ cs.head?, c ≠ 'e' ∧ c ≠ 'E') :
    scanExponent cs = none := by
  unfold scanExponent
  split
  · rename_i e r
    have he := h e rfl
    simp [he.1, he.2]
  · rfl

theorem scanExponent_mark (neg : Bool) {d : Char} {ds rest : List Char} (hd : d.isDigit = true)
    (hds : ∀ c ∈ ds, c.isDigit = true) (hrest : ∀ c ∈ rest.head?, c.isDigit = false) :
    scanExponent ('e' :: (if neg then '-' else '+') :: d :: ds ++ rest) =
      some (neg, d :: ds, rest) := by
  cases neg <;> simp [scanExponent, hd, spanDigits_append hds hrest]

theorem scanNumber_minus {cs : List Char} (h : ∀ c ∈ cs.head?, c ≠ '-') :
    scanNumber ('-' :: cs) = (scanNumber cs).map fun p => ({ p.1 with negative := true }, p.2) := by
  cases cs with
  | nil => rfl
  | cons c r =>
    unfold scanNumber
    rw [scanSign_of_ne (h c rfl)]
    simp only [scanSign, Option.map_map]
    congr 1
    funext ⟨w, r1⟩
    simp only [Function.comp]
    split <;> rfl

/-- A whole part and a fraction, then the end of the number. -/
theorem scanNumber_fraction {w f rest : List Char} (hw : IsWhole w) (hf : f ≠ [])
    (hfd : ∀ c ∈ f, c.isDigit = true) (hrest : EndsNumber rest) :
    scanNumber (w ++ '.' :: f ++ rest) = some (⟨false, w, f, false, [], true⟩, rest) := by
  obtain ⟨d, ds, rfl⟩ := List.exists_cons_of_ne_nil hf
  have hdigits : ∀ c ∈ rest.head?, c.isDigit = false := fun c hc => (hrest c hc).1
  unfold scanNumber
  rw [show w ++ '.' :: d :: ds ++ rest = w ++ ('.' :: d :: ds ++ rest) by simp,
    scanSign_of_head (hw.head_ne _)]
  dsimp only
  rw [scanWhole_of_isWhole hw (by simp)]
  simp only [Option.map_some]
  rw [scanFraction_point (hfd d (by simp)) (fun c hc => hfd c (by simp [hc])) hdigits,
    scanExponent_of_ne fun c hc => ⟨(hrest c hc).2.2.1, (hrest c hc).2.2.2⟩]
  rfl

/-- A whole part, an optional fraction and an exponent with its sign written out. -/
theorem scanNumber_exponent {w f e rest : List Char} (neg : Bool) (hw : IsWhole w)
    (hfd : ∀ c ∈ f, c.isDigit = true) (he : e ≠ []) (hed : ∀ c ∈ e, c.isDigit = true)
    (hrest : ∀ c ∈ rest.head?, c.isDigit = false) :
    scanNumber (w ++ (if f = [] then [] else '.' :: f) ++
        'e' :: (if neg then '-' else '+') :: e ++ rest) =
      some (⟨false, w, f, neg, e, true⟩, rest) := by
  obtain ⟨d, ds, rfl⟩ := List.exists_cons_of_ne_nil he
  have hexp := scanExponent_mark neg (hed d (by simp)) (fun c (hc : c ∈ ds) => hed c (by simp [hc]))
    hrest
  unfold scanNumber
  simp only [List.append_assoc]
  rw [scanSign_of_head (hw.head_ne _)]
  dsimp only
  rw [scanWhole_of_isWhole hw (by split <;> simp)]
  simp only [Option.map_some]
  by_cases hf : f = []
  · subst hf
    rw [if_pos rfl, List.nil_append, scanFraction_of_ne (by simp)]
    dsimp only
    rw [hexp]
  · obtain ⟨d', ds', rfl⟩ := List.exists_cons_of_ne_nil hf
    rw [if_neg hf,
      scanFraction_point (hfd d' (by simp)) (fun c hc => hfd c (by simp [hc])) (by simp)]
    dsimp only
    rw [hexp]

/-- The digits of a number token, fraction included, as one whole number. -/
def NumberToken.significand (t : NumberToken) : ℕ := digitsValue (t.whole ++ t.fraction)

/-- The power of ten that scales a number token's significand. -/
def NumberToken.scale (t : NumberToken) : ℤ :=
  (if t.exponentNegative then -(digitsValue t.exponent : ℤ) else digitsValue t.exponent) -
    t.fraction.length

theorem NumberToken.toValue_of_isFloat {t : NumberToken} (h : t.isFloat = true) :
    t.toValue = .ok (.float (decimalFloat t.negative t.significand t.scale)) := by
  simp [NumberToken.toValue, h, NumberToken.significand, NumberToken.scale]

open Number.Shortest in
theorem decimalText_cons {c : ℕ} (hc : 0 < c) :
    ∃ d ds, decimalText c = d :: ds ∧ '1' ≤ d ∧ d ≤ '9' := by
  induction c using Nat.strong_induction_on with
  | _ c ih =>
    rw [decimalText, Nat.toDigits_eq_if (by decide)]
    split
    · rename_i h
      refine ⟨_, [], rfl, ?_⟩
      interval_cases c <;> decide
    · obtain ⟨d, ds, h, hd⟩ := ih (c / 10) (by omega) (by omega)
      rw [decimalText] at h
      exact ⟨d, ds ++ _, by rw [h]; rfl, hd⟩

open Number.Shortest in
theorem decimalText_digits (c : ℕ) : ∀ d ∈ decimalText c, d.isDigit = true :=
  fun _ h => Nat.isDigit_of_mem_toDigits (by decide) (by decide) h

/-- The characters `cs`, followed by anything that ends a number, scan as one positive float
number of value `v`. -/
def ScansAsDecimal (cs : List Char) (v : ℚ) : Prop :=
  ∀ rest, EndsNumber rest → ∃ t : NumberToken, scanNumber (cs ++ rest) = some (t, rest) ∧
    t.negative = false ∧ t.isFloat = true ∧ 0 < t.significand ∧ (t.significand : ℚ) * 10 ^ t.scale = v

@[simp] theorem digitsValue_nil : digitsValue [] = 0 := rfl

@[simp] theorem digitsValue_cons_zero (ds : List Char) : digitsValue ('0' :: ds) = digitsValue ds :=
  rfl

@[simp] theorem digitsValue_decimalText (c : ℕ) : digitsValue (Number.Shortest.decimalText c) = c :=
  digitsValue_toDigits c

open Number.Shortest in
/-- `0.` then zeros and the digits. -/
theorem scansAsDecimal_point_first {c : ℕ} (hc : 0 < c) (n : ℕ) :
    ScansAsDecimal ('0' :: '.' :: (List.replicate n '0' ++ decimalText c))
      (c * 10 ^ (-(n : ℤ) - (decimalText c).length)) := by
  intro rest hrest
  obtain ⟨d, ds, hds, -⟩ := decimalText_cons hc
  have hdig := decimalText_digits c
  have h := scanNumber_fraction (Or.inl rfl : IsWhole ['0'])
    (f := List.replicate n '0' ++ decimalText c) (by simp [hds])
    (fun x hx => by
      rcases List.mem_append.1 hx with hx | hx
      · rw [List.eq_of_mem_replicate hx]; rfl
      · exact hdig x hx) hrest
  have hsig : digitsValue ('0' :: (List.replicate n '0' ++ decimalText c)) = c := by
    simp [digitsValue_append]
  refine ⟨_, by simpa using h, rfl, rfl, ?_, ?_⟩
  · simpa [NumberToken.significand, hsig] using hc
  · simp only [NumberToken.significand, NumberToken.scale, List.singleton_append, hsig,
      Bool.false_eq_true, if_false, digitsValue_nil, List.length_append, List.length_replicate]
    push_cast
    ring_nf

open Number.Shortest in
/-- Some digits, a point, and the other digits. -/
theorem scansAsDecimal_point_inside {c : ℕ} (hc : 0 < c) {n : ℕ} (hn0 : 0 < n)
    (hn : n < (decimalText c).length) :
    ScansAsDecimal ((decimalText c).take n ++ '.' :: (decimalText c).drop n)
      (c * 10 ^ ((n : ℤ) - (decimalText c).length)) := by
  intro rest hrest
  obtain ⟨d, ds, hds, hd⟩ := decimalText_cons hc
  have hdig := decimalText_digits c
  obtain ⟨m, rfl⟩ : ∃ m, n = m + 1 := ⟨n - 1, by omega⟩
  have hw : IsWhole ((decimalText c).take (m + 1)) := by
    rw [hds, List.take_succ_cons]
    refine Or.inr ⟨d, _, rfl, hd, fun x hx => hdig x ?_⟩
    rw [hds]
    exact List.mem_cons_of_mem _ (List.mem_of_mem_take hx)
  have hf : (decimalText c).drop (m + 1) ≠ [] := by
    rw [Ne, List.drop_eq_nil_iff]
    omega
  have h := scanNumber_fraction hw hf (fun x hx => hdig x (List.mem_of_mem_drop hx)) hrest
  have hsig : digitsValue ((decimalText c).take (m + 1) ++ (decimalText c).drop (m + 1)) = c := by
    rw [List.take_append_drop, digitsValue_decimalText]
  refine ⟨_, by simpa using h, rfl, rfl, by simp only [NumberToken.significand, hsig]; exact hc, ?_⟩
  simp only [NumberToken.significand, NumberToken.scale, hsig, Bool.false_eq_true, if_false,
    digitsValue_nil, List.length_drop]
  congr 2
  push_cast [Nat.cast_sub hn.le]
  ring

open Number.Shortest in
/-- All the digits, zeros up to the point, and `.0`. -/
theorem scansAsDecimal_point_after {c : ℕ} (hc : 0 < c) (m : ℕ) :
    ScansAsDecimal (decimalText c ++ List.replicate m '0' ++ ['.', '0']) (c * 10 ^ (m : ℤ)) := by
  intro rest hrest
  obtain ⟨d, ds, hds, hd⟩ := decimalText_cons hc
  have hdig := decimalText_digits c
  have hw : IsWhole (decimalText c ++ List.replicate m '0') := by
    rw [hds]
    refine Or.inr ⟨d, _, rfl, hd, fun x hx => ?_⟩
    rcases List.mem_append.1 hx with hx | hx
    · exact hdig x (by rw [hds]; exact List.mem_cons_of_mem _ hx)
    · rw [List.eq_of_mem_replicate hx]; rfl
  have h := scanNumber_fraction hw (f := ['0']) (by simp) (by simp) hrest
  have hsig : digitsValue (decimalText c ++ List.replicate m '0' ++ ['0']) = c * 10 ^ (m + 1) := by
    simp only [digitsValue_append, digitsValue_decimalText, digitsValue_replicate_zero,
      digitsValue_cons_zero, digitsValue_nil, List.length_replicate, List.length_singleton]
    ring
  refine ⟨_, by simpa using h, rfl, rfl, by simp only [NumberToken.significand, hsig]; positivity, ?_⟩
  simp only [NumberToken.significand, NumberToken.scale, hsig, Bool.false_eq_true, if_false,
    digitsValue_nil, List.length_singleton]
  push_cast
  rw [zpow_neg_one, zpow_natCast, pow_succ]
  field_simp

open Number.Shortest in
/-- One digit, the other digits after a point if there are any, and a signed exponent. -/
theorem scansAsDecimal_exponent {c : ℕ} (hc : 0 < c) {d : Char} {ds : List Char}
    (hds : decimalText c = d :: ds) (hd : '1' ≤ d ∧ d ≤ '9') (q : ℤ) (k : ℕ) :
    ScansAsDecimal ([d] ++ (if ds = [] then [] else '.' :: ds) ++
        'e' :: (if q < 0 then '-' else '+') :: (List.replicate k '0' ++ decimalText q.natAbs))
      (c * 10 ^ (q - ds.length)) := by
  intro rest hrest
  have hdig := decimalText_digits c
  rw [hds] at hdig
  have hexp : ∀ x ∈ List.replicate k '0' ++ decimalText q.natAbs, x.isDigit = true := by
    intro x hx
    rcases List.mem_append.1 hx with hx | hx
    · rw [List.eq_of_mem_replicate hx]; rfl
    · exact decimalText_digits _ x hx
  have h := scanNumber_exponent (decide (q < 0)) (w := [d]) (f := ds)
    (Or.inr ⟨d, [], rfl, hd, by simp⟩) (fun x hx => hdig x (List.mem_cons_of_mem _ hx))
    (by simp [decimalText]) hexp (fun x hx => (hrest x hx).1)
  have hsig : digitsValue ([d] ++ ds) = c := by
    rw [List.singleton_append, ← hds, digitsValue_decimalText]
  have hpow : digitsValue (List.replicate k '0' ++ decimalText q.natAbs) = q.natAbs := by
    simp [digitsValue_append]
  refine ⟨_, by simpa using h, rfl, rfl, by simp only [NumberToken.significand, hsig]; exact hc, ?_⟩
  simp only [NumberToken.significand, NumberToken.scale, hsig, hpow, decide_eq_true_eq]
  congr 2
  split <;> omega

open Number.Shortest in
/-- The standard layout of positive digits scans as one float number: the digits times the
power of ten that the position of the point gives. -/
theorem scansAsDecimal_layout {c : ℕ} (hc : 0 < c) (p : ℤ) :
    ScansAsDecimal (layout Style.standard (decimalText c) p).toList
      (c * 10 ^ (p - (decimalText c).length)) := by
  obtain ⟨d, ds, hds, hd⟩ := decimalText_cons hc
  unfold layout
  by_cases hpos : Style.standard.positionalLow ≤ p ∧ p ≤ Style.standard.positionalHigh
  · rw [if_pos hpos]
    by_cases hle : p ≤ 0
    · -- the point first
      rw [if_pos hle]
      convert scansAsDecimal_point_first hc (-p).toNat using 1
      · simp
      · congr 2; omega
    rw [if_neg hle]
    by_cases hlt : p.toNat < (decimalText c).length
    · -- the point among the digits
      rw [if_pos hlt]
      convert scansAsDecimal_point_inside hc (n := p.toNat) (by omega) hlt using 1
      · simp
      · congr 2; omega
    · -- the point after the digits
      rw [if_neg hlt]
      convert scansAsDecimal_point_after hc (p.toNat - (decimalText c).length) using 1
      · simp
      · congr 2; omega
  · -- one digit before the point and an exponent
    rw [if_neg hpos]
    convert scansAsDecimal_exponent hc hds hd (p - 1)
      (Style.standard.exponentWidth - (decimalText (p - 1).natAbs).length) using 1
    · rw [hds]
      by_cases hq : p - 1 < 0 <;> cases ds <;> simp [hq]
    · rw [hds, List.length_cons]
      congr 2
      push_cast
      ring

/-- A number read after a minus is negative. -/
theorem negative_of_scanNumber_minus {cs r : List Char} {t : NumberToken}
    (h : scanNumber ('-' :: cs) = some (t, r)) : t.negative = true := by
  unfold scanNumber at h
  simp only [scanSign] at h
  obtain ⟨⟨w, r1⟩, -, hp⟩ := Option.map_eq_some_iff.1 h
  dsimp only at hp
  split at hp <;> (injection hp with ht; rw [← ht])

/-- A minus in front of a number that reads as nonnegative makes it negative. -/
theorem scanNumber_minus_of_nonneg {cs r : List Char} {t : NumberToken}
    (h : scanNumber cs = some (t, r)) (hneg : t.negative = false) :
    scanNumber ('-' :: cs) = some ({ t with negative := true }, r) := by
  have hhead : ∀ c ∈ cs.head?, c ≠ '-' := by
    rintro c hc rfl
    obtain ⟨cs', rfl⟩ : ∃ cs', cs = '-' :: cs' := by
      cases cs with
      | nil => simp at hc
      | cons c' cs' => simp only [List.head?_cons, Option.mem_def, Option.some.injEq] at hc; exact ⟨cs', by rw [hc]⟩
    rw [negative_of_scanNumber_minus h] at hneg
    exact absurd hneg (by decide)
  rw [scanNumber_minus hhead, h]
  rfl

/-! ### Floats and integers -/

/-- A positive whole number with `d` digits lies in `[10^(d-1), 10^d)`. -/
theorem toDigits_length_bounds {M : ℕ} (hM : 0 < M) :
    (10 : ℚ) ^ ((Nat.toDigits 10 M).length - 1 : ℤ) ≤ M ∧
      (M : ℚ) < 10 ^ ((Nat.toDigits 10 M).length : ℤ) := by
  have hpos : 0 < (Nat.toDigits 10 M).length := Nat.length_toDigits_pos
  have hlt : M < 10 ^ (Nat.toDigits 10 M).length :=
    (Nat.length_toDigits_le_iff (by decide) hpos).1 le_rfl
  have hle : 10 ^ ((Nat.toDigits 10 M).length - 1) ≤ M := by
    rcases Nat.lt_or_ge 1 (Nat.toDigits 10 M).length with h | h
    · exact not_lt.1 fun h' => absurd ((Nat.length_toDigits_le_iff (by decide) (by omega)).2 h')
        (by omega)
    · rw [show (Nat.toDigits 10 M).length - 1 = 0 by omega, pow_zero]; exact hM
  constructor
  · rw [show ((Nat.toDigits 10 M).length - 1 : ℤ) = (((Nat.toDigits 10 M).length - 1 : ℕ) : ℤ) by
      push_cast [Nat.one_le_iff_ne_zero.2 hpos.ne']; ring, zpow_natCast]
    exact_mod_cast hle
  · rw [zpow_natCast]; exact_mod_cast hlt

/-- Reading `M · 10^s` back: a value in the rounding interval of a nonzero finite float gives
that float. -/
theorem decimalFloat_eq_of_inInterval {x : Float} (hf : isFinite x = true)
    (hm : (ofFloat x).significand ≠ 0) {M : ℕ} {s : ℤ} (hM : 0 < M)
    (hv : InInterval (ofFloat x) (M * 10 ^ s)) : decimalFloat (ofFloat x).negative M s = x := by
  obtain ⟨hlo, hhi⟩ := inInterval_bounds hf hm hv
  obtain ⟨hd1, hd2⟩ := toDigits_length_bounds hM
  have hs : (0 : ℚ) < 10 ^ s := by positivity
  unfold decimalFloat
  generalize (Nat.toDigits 10 M).length = d at hd1 hd2 ⊢
  rw [if_neg (by omega)]
  -- a value past either end of the range would leave the interval
  rw [if_neg fun h => by
    have : (10 : ℚ) ^ (310 : ℤ) ≤ M * 10 ^ s :=
      calc (10 : ℚ) ^ (310 : ℤ) ≤ 10 ^ ((d - 1 : ℤ) + s) := zpow_le_zpow_right₀ (by norm_num) (by omega)
        _ = 10 ^ (d - 1 : ℤ) * 10 ^ s := zpow_add₀ (by norm_num) _ _
        _ ≤ M * 10 ^ s := mul_le_mul_of_nonneg_right hd1 hs.le
    linarith]
  rw [if_neg fun h => by
    have : (M : ℚ) * 10 ^ s < 10 ^ (-331 : ℤ) :=
      calc (M : ℚ) * 10 ^ s < 10 ^ (d : ℤ) * 10 ^ s := mul_lt_mul_of_pos_right hd2 hs
        _ = 10 ^ ((d : ℤ) + s) := (zpow_add₀ (by norm_num) _ _).symm
        _ ≤ 10 ^ (-331 : ℤ) := zpow_le_zpow_right₀ (by norm_num) (by omega)
    linarith]
  split
  · rename_i hs0
    apply nearest_eq_of_inInterval x hf hm (Nat.mul_pos hM (Nat.pow_pos (by norm_num))) one_pos
    convert hv using 1
    simp only [Nat.cast_mul, Nat.cast_pow, Nat.cast_ofNat, Nat.cast_one, div_one]
    rw [← zpow_natCast, Int.toNat_of_nonneg hs0]
  · rename_i hs0
    apply nearest_eq_of_inInterval x hf hm hM (Nat.pow_pos (by norm_num))
    convert hv using 1
    simp only [Nat.cast_pow, Nat.cast_ofNat]
    rw [← zpow_natCast, Int.toNat_of_nonneg (by omega), zpow_neg, div_inv_eq_mul]

theorem decimalFloat_zero (neg : Bool) (s : ℤ) : decimalFloat neg 0 s = pack neg 0 0 := by
  unfold decimalFloat
  rw [if_pos rfl]

open Number.Shortest in
/-- The text of a finite float: its sign, then `0.0` for a zero and its shortest digits laid out
otherwise. -/
theorem render_of_isFinite {x : Float} (hf : isFinite x = true) :
    render Style.standard x = (if signBit x then "-" else "") ++
      (if (ofFloat x).significand = 0 then "0.0"
       else layout Style.standard (decimalText (digits (ofFloat x)).1)
        ((digits (ofFloat x)).2 + (decimalText (digits (ofFloat x)).1).length)) := by
  unfold render
  rw [isNaN_eq_false_of_isFinite hf, hf]
  simp only [Bool.false_eq_true, if_false, Bool.not_true]
  split <;> rfl

open Number.Shortest in
/-- Without its sign, the text of a finite float reads as a nonnegative float number that
rounds back to the float. -/
theorem scanNumber_unsigned {x : Float} (hf : isFinite x = true) {rest : List Char}
    (hrest : EndsNumber rest) :
    ∃ t : NumberToken, scanNumber ((if (ofFloat x).significand = 0 then "0.0"
        else layout Style.standard (decimalText (digits (ofFloat x)).1)
          ((digits (ofFloat x)).2 + (decimalText (digits (ofFloat x)).1).length)).toList ++ rest) =
        some (t, rest) ∧ t.negative = false ∧ t.isFloat = true ∧
      decimalFloat (ofFloat x).negative t.significand t.scale = x := by
  split
  · -- a zero
    rename_i hm
    have h := scanNumber_fraction (Or.inl rfl) (f := ['0']) (by simp) (by simp) hrest
    refine ⟨_, by simpa using h, rfl, rfl, ?_⟩
    have hzero : NumberToken.significand ⟨false, ['0'], ['0'], false, [], true⟩ = 0 := rfl
    rw [hzero, decimalFloat_zero, negative_ofFloat, pack_zero_eq x hf hm]
  · -- the shortest digits
    rename_i hm
    obtain ⟨hc, hin⟩ := digits_spec (ofFloat x) (Nat.pos_of_ne_zero hm) (significand_lt x)
      (exponent_ge x) (exponent_le_of_isFinite x hf)
    obtain ⟨t, ht, hneg, hfl, hsig, hval⟩ := scansAsDecimal_layout hc
      ((digits (ofFloat x)).2 + (decimalText (digits (ofFloat x)).1).length) rest hrest
    refine ⟨t, ht, hneg, hfl, decimalFloat_eq_of_inInterval hf hm hsig ?_⟩
    rw [hval, add_sub_cancel_right]
    exact hin

/-- The text `render` writes for a finite float, followed by anything that ends a number, reads
back as that float. -/
theorem scanNumber_render {x : Float} (hf : isFinite x = true) {rest : List Char}
    (hrest : EndsNumber rest) :
    ∃ t, scanNumber ((Shortest.render Shortest.Style.standard x).toList ++ rest) = some (t, rest) ∧
      t.toValue = .ok (.float x) := by
  obtain ⟨t, ht, hneg, hfl, hx⟩ := scanNumber_unsigned hf hrest
  rw [render_of_isFinite hf, negative_ofFloat] at *
  cases hs : signBit x
  · rw [hs] at hx
    refine ⟨t, by simpa using ht, ?_⟩
    rw [NumberToken.toValue_of_isFloat hfl, hneg, hx]
  · rw [hs] at hx
    refine ⟨{ t with negative := true }, ?_, ?_⟩
    · simpa using scanNumber_minus_of_nonneg ht hneg
    · rw [NumberToken.toValue_of_isFloat (show ({ t with negative := true } : NumberToken).isFloat = true
        from hfl)]
      exact congrArg (fun y => Except.ok (Value.float y)) hx

/-- A whole part with nothing after it that continues a number. -/
theorem scanNumber_whole {w rest : List Char} (hw : IsWhole w) (hrest : EndsNumber rest) :
    scanNumber (w ++ rest) = some (⟨false, w, [], false, [], false⟩, rest) := by
  unfold scanNumber
  rw [scanSign_of_head (hw.head_ne _)]
  dsimp only
  rw [scanWhole_of_isWhole hw fun c hc => (hrest c hc).1]
  simp only [Option.map_some]
  rw [scanFraction_of_ne fun c hc => (hrest c hc).2.1]
  dsimp only
  rw [scanExponent_of_ne fun c hc => ⟨(hrest c hc).2.2.1, (hrest c hc).2.2.2⟩]
  rfl

theorem isWhole_toDigits (m : ℕ) : IsWhole (Nat.toDigits 10 m) := by
  rcases Nat.eq_zero_or_pos m with rfl | hm
  · exact Or.inl (Nat.toDigits_zero 10)
  · obtain ⟨d, ds, h, hd⟩ := decimalText_cons hm
    refine Or.inr ⟨d, ds, h, hd, fun c hc => decimalText_digits m c ?_⟩
    rw [h]
    exact List.mem_cons_of_mem _ hc

/-- The decimal text of an integer, followed by anything that ends a number, reads back as
that integer when it has at most `maxIntegerDigits` digits. -/
theorem scanNumber_toString_int (n : ℤ) {rest : List Char} (hrest : EndsNumber rest)
    (hlen : (Nat.toDigits 10 n.natAbs).length ≤ maxIntegerDigits) :
    ∃ t, scanNumber ((toString n).toList ++ rest) = some (t, rest) ∧
      t.toValue = .ok (.int n) := by
  cases n with
  | ofNat m =>
    have hlen' : (Nat.toDigits 10 m).length ≤ maxIntegerDigits := hlen
    have h := scanNumber_whole (isWhole_toDigits m) hrest
    refine ⟨_, by simpa [Int.toString_eq_repr, Int.repr] using h, ?_⟩
    simp only [NumberToken.toValue, Bool.false_eq_true, if_false, gt_iff_lt, if_neg (not_lt.2 hlen'),
      digitsValue_toDigits]
    rfl
  | negSucc m =>
    have hlen' : (Nat.toDigits 10 (m + 1)).length ≤ maxIntegerDigits := hlen
    have h := scanNumber_whole (isWhole_toDigits (m + 1)) hrest
    refine ⟨_, by simpa [Int.toString_eq_repr, Int.repr] using scanNumber_minus_of_nonneg h rfl, ?_⟩
    simp only [NumberToken.toValue, Bool.false_eq_true, if_false, if_true, gt_iff_lt,
      if_neg (not_lt.2 hlen'), digitsValue_toDigits]
    congr 2

end OperandLifecycle.Json.Parse
