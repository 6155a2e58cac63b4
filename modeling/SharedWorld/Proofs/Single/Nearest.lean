import SharedWorld.Proofs.Single.Amount

/-! Arithmetic, to the nearest number. Whatever is computed amounts to as little more or less than the
exact result as any number does. -/
namespace SharedWorld.Single
open Float.Model Float.Model.UnpackedFloat

/-- What the mantissa and the two bits behind it say of the exact value. -/
def Describes (em : ExtendedMantissa) (q : ℚ) : Prop :=
  match em.roundBit, em.stickyBit with
  | false, false => q = em.mantissa
  | false, true => em.mantissa < q ∧ q < em.mantissa + 1 / 2
  | true, false => q = em.mantissa + 1 / 2
  | true, true => em.mantissa + 1 / 2 < q ∧ q < em.mantissa + 1

namespace Describes
variable {em : ExtendedMantissa} {q : ℚ}

theorem bounds (h : Describes em q) : em.mantissa ≤ q ∧ q < em.mantissa + 1 := by
  obtain ⟨m, r, s⟩ := em
  cases r <;> cases s <;> simp only [Describes] at h ⊢ <;> constructor <;> linarith

theorem shiftRightOne (h : Describes em q) : Describes em.shiftRightOne (q / 2) := by
  obtain ⟨m, r, s⟩ := em
  rcases Nat.even_or_odd' m with ⟨k, rfl | rfl⟩
  · have half : 2 * k / 2 = k := by omega
    cases r <;> cases s <;>
      simp [Describes, ExtendedMantissa.shiftRightOne, half] at h ⊢ <;>
      first | (constructor <;> linarith) | linarith
  · have half : (2 * k + 1) / 2 = k := by omega
    cases r <;> cases s <;>
      simp [Describes, ExtendedMantissa.shiftRightOne, half] at h ⊢ <;>
      first | (constructor <;> linarith) | linarith

theorem shiftRight (h : Describes em q) (n : Nat) : Describes (em >>> n) (q / 2 ^ n) := by
  induction n with
  | zero =>
    rw [pow_zero, div_one]
    exact h
  | succ n ih =>
    rw [pow_succ, ← div_div]
    exact ih.shiftRightOne

theorem rounded (h : Describes em q) : |q - em.roundedMantissa| ≤ 1 / 2 := by
  obtain ⟨m, r, s⟩ := em
  rw [abs_le]
  cases r <;> cases s <;>
    simp only [Describes, ExtendedMantissa.roundedMantissa, ExtendedMantissa.accuracy,
      Accuracy.roundToNearestEven] at h ⊢
  · constructor <;> linarith
  · constructor <;> linarith
  · have last : ((m % 2 : Nat) : ℚ) ≤ 1 := by exact_mod_cast Nat.le_of_lt_succ (Nat.mod_lt m two_pos)
    push_cast
    constructor <;> linarith
  · push_cast
    constructor <;> linarith

end Describes

/-- The exponent with which a value is written that has these digits. -/
def target (m : Nat) (e : Int) : Int := Max.max (m.log2 + 1 + e - 24) (-149)

theorem targetExponent_eq (m : Nat) (e : Int) :
    Format.binary32.targetExponent (totalExponent m e) = target m e := rfl

theorem shift_short {k : Nat} {e : Int} (least : -149 ≤ e) (short : k < 0x1000000) :
    shiftToTargetExponent .binary32 k e .exact = (⟨k, false, false⟩, e) := by
  have digits : k.log2 < 24 := by
    by_cases none : k = 0
    · rw [none]
      decide
    · exact (Nat.log2_lt none).mpr short
  have stay : (target k e - e).toNat = 0 := by
    unfold target
    omega
  unfold shiftToTargetExponent shiftToExponent
  rw [targetExponent_eq]
  dsimp only
  rw [stay, Nat.cast_zero, add_zero]
  rfl

theorem shift_carry {e : Int} (least : -149 ≤ e) :
    shiftToTargetExponent .binary32 0x1000000 e .exact = (⟨0x800000, false, false⟩, e + 1) := by
  have step : (target 0x1000000 e - e).toNat = 1 := by
    have digits : Nat.log2 0x1000000 = 24 := by decide
    unfold target
    omega
  unfold shiftToTargetExponent shiftToExponent
  rw [targetExponent_eq]
  dsimp only
  rw [step]
  rfl

/-- The rounded mantissa with its sign and exponent; where rounding carried into a new digit, one digit
is dropped. -/
def carried (s : Sign) (k : Nat) (e : Int) : UnpackedFloat :=
  if h : k = 0 then .zero s
  else if k < 0x1000000 then .finite s k e (Nat.pos_of_ne_zero h)
  else .finite s 0x800000 (e + 1) (by decide)

theorem roundWithAccuracy_eq_carried {s : Sign} {m k : Nat} {e : Int} {acc : Accuracy}
    {em : ExtendedMantissa} (first : shiftToTargetExponent .binary32 m e acc = (em, target m e))
    (rounded : em.roundedMantissa = k) (most : k ≤ 0x1000000) :
    roundWithAccuracy .binary32 s m e acc = carried s k (target m e) := by
  have least : -149 ≤ target m e := le_max_right ..
  unfold roundWithAccuracy carried
  rw [first]
  dsimp only
  rw [rounded]
  by_cases short : k < 0x1000000
  · rw [shift_short least short]
    dsimp only
    split <;> rfl
  · obtain rfl : k = 0x1000000 := by omega
    rw [shift_carry least]
    rfl

section
variable {m n : Nat} {e : Int} {q : ℚ} (shift : target m e = e + n)
include shift

theorem scaled_lt (below : q < m + 1) : q / 2 ^ n < 0x1000000 := by
  have digits : m.log2 + 1 ≤ 24 + n := by
    have : (m.log2 : Int) + 1 + e - 24 ≤ target m e := le_max_left ..
    omega
  have bound : m + 1 ≤ 2 ^ (24 + n) :=
    (Nat.lt_log2_self (n := m)).trans_le (Nat.pow_le_pow_right two_pos digits)
  rw [div_lt_iff₀ (by positivity)]
  calc q
    _ < ((m + 1 : Nat) : ℚ) := by exact_mod_cast below
    _ ≤ ((2 ^ (24 + n) : Nat) : ℚ) := Nat.cast_le.mpr bound
    _ = 0x1000000 * 2 ^ n := by
      push_cast
      rw [pow_add]
      norm_num

theorem le_scaled (some : 0 < m ∨ target m e = -149) (above : m ≤ q) :
    0x800000 ≤ q / 2 ^ n ∨ target m e = -149 := by
  refine or_iff_not_imp_right.mpr fun floor => ?_
  have digits : m.log2 = 23 + n := by
    have : target m e = m.log2 + 1 + e - 24 := (max_choice _ _).resolve_right floor
    omega
  have bound : 2 ^ (23 + n) ≤ m := digits ▸ Nat.log2_self_le (some.resolve_right floor).ne'
  rw [le_div_iff₀ (by positivity)]
  calc (0x800000 : ℚ) * 2 ^ n
    _ = ((2 ^ (23 + n) : Nat) : ℚ) := by
      push_cast
      rw [pow_add]
      norm_num
    _ ≤ m := Nat.cast_le.mpr bound
    _ ≤ q := above

end

theorem roundWithAccuracy_near {m : Nat} {e : Int} {acc : Accuracy} {q : ℚ}
    (h : Describes (.ofMantissaAndAccuracy m acc) q) (some : 0 < m ∨ target m e = -149)
    (low : e ≤ target m e) (s : Sign) :
    ∃ k : Nat, |q * 2 ^ e - k * 2 ^ target m e| ≤ 2 ^ target m e / 2 ∧ k ≤ 0x1000000 ∧
      (0x800000 * 2 ^ target m e ≤ q * 2 ^ e ∨ target m e = -149) ∧
      roundWithAccuracy .binary32 s m e acc = carried s k (target m e) := by
  obtain ⟨n, shift⟩ : ∃ n : Nat, target m e = e + n := ⟨(target m e - e).toNat, by omega⟩
  let shifted := ExtendedMantissa.ofMantissaAndAccuracy m acc >>> n
  have near := (h.shiftRight n).rounded
  have unit := two_zpow_pos (target m e)
  have scaled : q * 2 ^ e = q / 2 ^ n * 2 ^ target m e := by
    rw [shift, two_zpow_add_nat, ← mul_assoc, div_mul_cancel₀ _ (by positivity)]
  have given : (ExtendedMantissa.ofMantissaAndAccuracy m acc).mantissa = m := by
    rcases acc with _ | (_ | _ | _) <;> rfl
  obtain ⟨above, below⟩ := h.bounds
  rw [given] at above below
  have first : shiftToTargetExponent .binary32 m e acc = (shifted, target m e) := by
    have amount : (target m e - e).toNat = n := by omega
    unfold shiftToTargetExponent shiftToExponent
    rw [targetExponent_eq]
    dsimp only
    rw [amount, shift]
  have most : shifted.roundedMantissa ≤ 0x1000000 := by
    have short := scaled_lt shift below
    have : (shifted.roundedMantissa : ℚ) < 0x1000000 + 1 := by linarith [(abs_le.mp near).1]
    exact Nat.le_of_lt_succ (by exact_mod_cast this)
  refine ⟨shifted.roundedMantissa, ?_, most, ?_, roundWithAccuracy_eq_carried first rfl most⟩
  · rw [scaled, ← sub_mul, abs_mul, abs_of_pos unit]
    linarith [mul_le_mul_of_nonneg_right near unit.le]
  · rw [scaled]
    exact (le_scaled shift some above).imp_left fun tall => mul_le_mul_of_nonneg_right tall unit.le

/-- What a number can amount to, seen from those that are written with the exponent `t`: a multiple of
their last digit, or less than all of them. -/
def Spaced (t : Int) (a : ℚ) : Prop :=
  (∃ j : Int, a = j * 2 ^ t) ∨ -149 < t ∧ |a| < 0x800000 * 2 ^ t

theorem Spaced.neg {t : Int} {a : ℚ} (h : Spaced t a) : Spaced t (-a) := by
  rcases h with ⟨j, rfl⟩ | ⟨low, less⟩
  · exact .inl ⟨-j, by push_cast; ring⟩
  · exact .inr ⟨low, (abs_neg a).symm ▸ less⟩

theorem zpow_of_le {t e : Int} (h : t ≤ e) : ∃ n : Nat, (2 : ℚ) ^ e = 2 ^ n * 2 ^ t := by
  obtain ⟨n, rfl⟩ := Int.le.dest h
  exact ⟨n, two_zpow_add_nat t n⟩

theorem reach_spaced (t : Int) : Spaced t (2 ^ (128 : ℤ)) := by
  rcases le_or_gt t 128 with small | large
  · obtain ⟨n, hn⟩ := zpow_of_le small
    exact .inl ⟨2 ^ n, by rw [hn]; push_cast; ring⟩
  · refine .inr ⟨by omega, ?_⟩
    rw [abs_of_pos (two_zpow_pos 128)]
    have more : (2 : ℚ) ^ (128 : ℤ) ≤ 2 ^ t := zpow_le_zpow_right₀ one_le_two large.le
    linarith [two_zpow_pos 128]

theorem Fits.spaced {m : Nat} {e t : Int} (h : Fits m e) : Spaced t (m * 2 ^ e) := by
  rcases le_or_gt t e with small | large
  · obtain ⟨n, hn⟩ := zpow_of_le small
    exact .inl ⟨m * 2 ^ n, by rw [hn]; push_cast; ring⟩
  · have := h.least
    refine .inr ⟨by omega, ?_⟩
    obtain ⟨n, hn⟩ := zpow_of_le (Int.add_one_le_of_lt large)
    have short : (m : ℚ) < 0x1000000 := by exact_mod_cast h.short
    have one_le : (1 : ℚ) ≤ 2 ^ n := one_le_pow₀ one_le_two
    have unit := two_zpow_pos e
    rw [abs_of_nonneg (by positivity), hn, zpow_add_one₀ two_ne_zero]
    nlinarith

theorem amountOf_spaced {u : UnpackedFloat} (h : Canonical u) (t : Int) : Spaced t (amountOf u) := by
  cases u with
  | notANumber | zero => exact .inl ⟨0, by simp [amountOf]⟩
  | infinity s =>
    cases s with
    | positive =>
      rw [amountOf_infinity.1]
      exact reach_spaced t
    | negative =>
      rw [amountOf_infinity.2]
      exact (reach_spaced t).neg
  | finite s m e pos =>
    have near : Spaced t (amountOf (.finite .positive m e pos)) := Fits.spaced h
    cases s with
    | positive => exact near
    | negative =>
      rw [amountOf_negative]
      exact near.neg

theorem near_of_spaced {q a : ℚ} {k t : Int} (near : |q - k * 2 ^ t| ≤ 2 ^ t / 2)
    (tall : 0x800000 * 2 ^ t ≤ q ∨ t = -149) (h : Spaced t a) : |q - k * 2 ^ t| ≤ |q - a| := by
  have unit := two_zpow_pos t
  have multiples (j : Int) : |q - k * 2 ^ t| ≤ |q - j * 2 ^ t| := by
    by_cases same : j = k
    · rw [same]
    · have apart : (1 : ℚ) ≤ |((k - j : Int) : ℚ)| := by
        rw [← Int.cast_abs]
        exact_mod_cast Int.one_le_abs (sub_ne_zero.mpr (Ne.symm same))
      have between : |(k : ℚ) * 2 ^ t - j * 2 ^ t| = |((k - j : Int) : ℚ)| * 2 ^ t := by
        rw [← sub_mul, abs_mul, abs_of_pos unit, Int.cast_sub]
      have triangle := abs_sub_le ((k : ℚ) * 2 ^ t) q (j * 2 ^ t)
      rw [between, abs_sub_comm _ q] at triangle
      nlinarith
  -- A number that is no multiple lies below all those that have all their digits.
  rcases h with ⟨j, rfl⟩ | ⟨low, less⟩
  · exact multiples j
  · have tall := tall.resolve_right (by omega)
    have first := multiples 0x800000
    push_cast at first
    rw [abs_of_nonneg (sub_nonneg.mpr tall)] at first
    have := (abs_lt.mp less).2
    exact first.trans ((by linarith : _ ≤ q - a).trans (le_abs_self _))

theorem near_within_reach {q a : ℚ} {k : Nat} {t : Int} (near : |q - k * 2 ^ t| ≤ 2 ^ t / 2)
    (tall : 0x800000 * 2 ^ t ≤ q ∨ t = -149) (h : Spaced t a) (within : a ≤ 2 ^ (128 : ℤ)) :
    |q - Min.min ((k : ℚ) * 2 ^ t) (2 ^ (128 : ℤ))| ≤ |q - a| := by
  have nearest {b : ℚ} (hb : Spaced t b) : |q - k * 2 ^ t| ≤ |q - b| :=
    near_of_spaced (k := k) near tall hb
  rcases le_or_gt ((k : ℚ) * 2 ^ t) (2 ^ (128 : ℤ)) with fits | beyond
  · rw [min_eq_left fits]
    exact nearest h
  · rw [min_eq_right beyond.le]
    rcases le_or_gt q (2 ^ (128 : ℤ)) with less | more
    · have reached := nearest (reach_spaced t)
      rw [abs_of_nonpos (by linarith), abs_of_nonpos (by linarith)] at reached
      linarith
    · rw [abs_of_pos (by linarith)]
      exact (sub_le_sub_left within q).trans (le_abs_self _)

/-- As near as any number comes. -/
structure NearestTo (q : ℚ) (u : UnpackedFloat) : Prop where
  number : Number u
  near : ∀ v, Number v → |q - amountOf u| ≤ |q - amountOf v|

theorem amountOf_finite (s : Sign) (m : Nat) (e : Int) (pos : 0 < m) :
    amountOf (.finite s m e pos) = (s.apply 1 : ℤ) * (m * 2 ^ e) := by
  cases s <;> simp [amountOf, Sign.apply]

theorem amountOf_carried (s : Sign) {k : Nat} {t : Int} (most : k ≤ 0x1000000) (least : -149 ≤ t)
    (full : 0x800000 ≤ k ∨ t = -149) :
    ∃ u, UnpackedFloat.unpack .binary32 (pack .binary32 (carried s k t)) = u ∧ Number u ∧
      amountOf u = (s.apply 1 : ℤ) * Min.min ((k : ℚ) * 2 ^ t) (2 ^ (128 : ℤ)) := by
  have reach := two_zpow_pos 128
  have finite {m : Nat} {e : Int} {pos : 0 < m} (shaped : Shaped m e)
      (same : (m : ℚ) * 2 ^ e = k * 2 ^ t) :
      ∃ u, UnpackedFloat.unpack .binary32 (pack .binary32 (.finite s m e pos)) = u ∧ Number u ∧
        amountOf u = (s.apply 1 : ℤ) * Min.min ((k : ℚ) * 2 ^ t) (2 ^ (128 : ℤ)) := by
    -- Above this exponent a mantissa with all its digits is out of reach.
    rcases le_or_gt e 104 with fits | large
    · have fits : Fits m e := ⟨shaped, fits⟩
      refine ⟨_, unpack_pack fits, .finite fits, ?_⟩
      rw [amountOf_finite, ← same, min_eq_left fits.lt_reach.le]
    · refine ⟨_, unpack_pack_overflow large, .infinity s, ?_⟩
      have full : (0x800000 : ℚ) ≤ m := by
        exact_mod_cast shaped.full.resolve_right (by omega)
      have power : (2 : ℚ) ^ (105 : ℤ) ≤ 2 ^ e := zpow_le_zpow_right₀ one_le_two (by omega)
      have beyond : (2 : ℚ) ^ (128 : ℤ) ≤ m * 2 ^ e := by
        calc (2 : ℚ) ^ (128 : ℤ)
          _ = 0x800000 * 2 ^ (105 : ℤ) := by norm_num
          _ ≤ m * 2 ^ e := mul_le_mul full power (by positivity) (by positivity)
      rw [← same, min_eq_right beyond]
      rfl
  unfold carried
  split
  · next none =>
    refine ⟨.zero s, unpack_pack (u := .zero s) trivial, .zero s, ?_⟩
    rw [none, Nat.cast_zero, zero_mul, min_eq_left reach.le, mul_zero]
    rfl
  split
  · next short => exact finite ⟨short, least, full⟩ rfl
  · next long =>
    obtain rfl : k = 0x1000000 := by omega
    refine finite ⟨by decide, by omega, .inl le_rfl⟩ ?_
    rw [zpow_add_one₀ two_ne_zero]
    push_cast
    ring

theorem roundWithAccuracy_nearest {m : Nat} {e : Int} {acc : Accuracy} {q : ℚ}
    (h : Describes (.ofMantissaAndAccuracy m acc) q) (some : 0 < m ∨ target m e = -149)
    (low : e ≤ target m e) (s : Sign) :
    NearestTo ((s.apply 1 : ℤ) * (q * 2 ^ e)) (UnpackedFloat.unpack .binary32
      (pack .binary32 (roundWithAccuracy .binary32 s m e acc))) := by
  obtain ⟨k, near, most, tall, rounded⟩ := roundWithAccuracy_near h some low s
  have least : -149 ≤ target m e := le_max_right ..
  have unit := two_zpow_pos (target m e)
  have full : 0x800000 ≤ k ∨ target m e = -149 := by
    refine tall.imp_left fun tall => Nat.le_of_lt_succ ?_
    have most := (abs_le.mp near).2
    have digits : (0x800000 : ℚ) * 2 ^ target m e < (k + 1) * 2 ^ target m e := by linarith
    exact_mod_cast lt_of_mul_lt_mul_right digits unit.le
  obtain ⟨u, settled, number, amount⟩ := amountOf_carried s most least full
  rw [rounded, settled]
  refine ⟨number, fun v hv => ?_⟩
  have spaced := amountOf_spaced hv.canonical (target m e)
  have within := abs_amountOf_le hv.canonical
  rw [amount]
  cases s with
  | positive =>
    have sign : ((Sign.positive.apply 1 : ℤ) : ℚ) = 1 := by norm_num [Sign.apply]
    rw [sign, one_mul, one_mul]
    exact near_within_reach near tall spaced (abs_le.mp within).2
  | negative =>
    have nearest := near_within_reach near tall spaced.neg (neg_le.mp (abs_le.mp within).1)
    have sign : ((Sign.negative.apply 1 : ℤ) : ℚ) = -1 := by norm_num [Sign.apply]
    have turn (a b : ℚ) : -1 * a - b = -(a - -b) := by ring
    rw [sign, turn, turn, abs_neg, abs_neg, neg_mul, one_mul, neg_neg]
    exact nearest

theorem NearestTo.exact {u : UnpackedFloat} (h : Number u) :
    NearestTo (amountOf u) (UnpackedFloat.unpack .binary32 (pack .binary32 u)) := by
  rw [unpack_pack h.canonical]
  refine ⟨h, fun v _ => ?_⟩
  rw [sub_self, abs_zero]
  exact abs_nonneg _

theorem NearestTo.zero (s : Sign) :
    NearestTo 0 (UnpackedFloat.unpack .binary32 (pack .binary32 (.zero s))) :=
  .exact (.zero s)

theorem decreaseExponent_amount (m : Nat) (e t : Int) :
    ((decreaseExponent m e t).1 : ℚ) * 2 ^ (decreaseExponent m e t).2 = m * 2 ^ e := by
  unfold decreaseExponent
  dsimp only
  have split : e = e - (e - t).toNat + (e - t).toNat := by omega
  rw [Nat.shiftLeft_eq]
  conv_rhs => rw [split, two_zpow_add_nat]
  push_cast
  ring

theorem exact_describes (m : Nat) : Describes (.ofMantissaAndAccuracy m .exact) m := rfl

theorem log2_shiftLeft {m : Nat} (some : 0 < m) (n : Nat) : (m <<< n).log2 = m.log2 + n := by
  rw [Nat.shiftLeft_eq]
  induction n with
  | zero => rw [pow_zero, mul_one, add_zero]
  | succ n ih =>
    rw [pow_succ, ← mul_assoc, mul_comm, Nat.log2_two_mul (by positivity), ih, add_assoc]

theorem round_nearest {m : Nat} (e : Int) (some : 0 < m) (s : Sign) :
    NearestTo ((s.apply 1 : ℤ) * (m * 2 ^ e)) (UnpackedFloat.unpack .binary32
      (pack .binary32 (UnpackedFloat.round .binary32 s m e))) := by
  rw [← decreaseExponent_amount m e (target m e)]
  refine roundWithAccuracy_nearest (exact_describes _) (.inl ?_) ?_ s
  · simpa [decreaseExponent, Nat.shiftLeft_eq] using some
  · unfold decreaseExponent target
    dsimp only
    rw [log2_shiftLeft some]
    omega

theorem normalize_nearest (m e : Int) (zero : Sign) :
    NearestTo (m * 2 ^ e) (UnpackedFloat.unpack .binary32
      (pack .binary32 (UnpackedFloat.normalize .binary32 m e zero))) := by
  unfold UnpackedFloat.normalize
  rcases lt_trichotomy m 0 with negative | rfl | positive
  · obtain ⟨n, rfl⟩ : ∃ n : Nat, m = -n := ⟨(-m).toNat, by omega⟩
    rw [compare_lt_iff_lt.mpr negative]
    have rounded := round_nearest (m := n) e (by omega) .negative
    simpa [Sign.apply] using rounded
  · rw [compare_eq_iff_eq.mpr rfl, Int.cast_zero, zero_mul]
    exact .zero zero
  · obtain ⟨n, rfl⟩ : ∃ n : Nat, m = n := ⟨m.toNat, by omega⟩
    rw [compare_gt_iff_gt.mpr positive]
    have rounded := round_nearest (m := n) e (by omega) .positive
    simpa [Sign.apply] using rounded

theorem aligned (s : Sign) {m : Nat} {e t : Int} {pos : 0 < m} (h : t ≤ e) :
    ((s.apply (decreaseExponent m e t).1 : ℤ) : ℚ) * 2 ^ t = amountOf (.finite s m e pos) := by
  have reached : (decreaseExponent m e t).2 = t := by
    unfold decreaseExponent
    dsimp only
    omega
  have value := decreaseExponent_amount m e t
  rw [reached] at value
  rw [amountOf_finite, ← value]
  cases s <;> simp [Sign.apply]

theorem product_target {m m' : Nat} {e e' : Int} (h : Fits m e) (h' : Fits m' e') (pos : 0 < m)
    (pos' : 0 < m') : e + e' ≤ target (m * m') (e + e') := by
  have digits (full : 0x800000 ≤ m * m') : 23 ≤ (m * m').log2 :=
    (Nat.le_log2 (Nat.mul_pos pos pos').ne').mpr full
  unfold target
  rcases h.full with full | rfl
  · have := digits (full.trans (Nat.le_mul_of_pos_right m pos'))
    omega
  rcases h'.full with full | rfl
  · have := digits (full.trans (Nat.le_mul_of_pos_left m' pos))
    omega
  · omega

section
variable {u v : UnpackedFloat} (hu : Canonical u) (hv : Canonical v) (fu : Finite u) (fv : Finite v)
include hu hv fu fv

theorem add_nearestTo : NearestTo (amountOf u + amountOf v)
    (UnpackedFloat.unpack .binary32 (pack .binary32 (UnpackedFloat.add .binary32 u v))) := by
  cases u with
  | infinity | notANumber => exact fu.elim
  | zero s =>
    rw [show amountOf (.zero s) = 0 from rfl, zero_add]
    cases v with
    | infinity | notANumber => exact fv.elim
    | zero s' => cases s <;> cases s' <;> exact .zero _
    | finite s' m' e' pos' => exact .exact (.finite hv)
  | finite s m e pos =>
    cases v with
    | infinity | notANumber => exact fv.elim
    | zero s' =>
      rw [show amountOf (.zero s') = 0 from rfl, add_zero]
      exact .exact (.finite hu)
    | finite s' m' e' pos' =>
      have sum := normalize_nearest (s.apply (decreaseExponent m e (Min.min e e')).1 +
        s'.apply (decreaseExponent m' e' (Min.min e e')).1) (Min.min e e') .positive
      rw [Int.cast_add, add_mul, aligned s (min_le_left e e'), aligned s' (min_le_right e e')] at sum
      exact sum

theorem mul_nearestTo : NearestTo (amountOf u * amountOf v)
    (UnpackedFloat.unpack .binary32 (pack .binary32 (UnpackedFloat.mul .binary32 u v))) := by
  cases u with
  | infinity | notANumber => exact fu.elim
  | zero s =>
    rw [show amountOf (.zero s) = 0 from rfl, zero_mul]
    cases v with
    | infinity | notANumber => exact fv.elim
    | zero s' | finite s' => exact .zero (s * s')
  | finite s m e pos =>
    cases v with
    | infinity | notANumber => exact fv.elim
    | zero s' =>
      rw [show amountOf (.zero s') = 0 from rfl, mul_zero]
      exact .zero (s * s')
    | finite s' m' e' pos' =>
      have hu : Fits m e := hu
      have hv : Fits m' e' := hv
      have product := roundWithAccuracy_nearest (exact_describes (m * m'))
        (.inl (Nat.mul_pos pos pos')) (product_target hu hv pos pos') (s * s')
      have value : ((s * s').apply 1 : ℤ) * (((m * m' : Nat) : ℚ) * 2 ^ (e + e')) =
          amountOf (.finite s m e pos) * amountOf (.finite s' m' e' pos') := by
        have sign : (s * s').apply 1 = s.apply 1 * s'.apply 1 := by cases s <;> cases s' <;> rfl
        rw [amountOf_finite, amountOf_finite, sign, zpow_add₀ two_ne_zero, Nat.cast_mul,
          Int.cast_mul]
        ring
      rw [value] at product
      exact product

end

end SharedWorld.Single
