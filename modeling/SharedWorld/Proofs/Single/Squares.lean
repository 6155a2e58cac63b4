import SharedWorld.Proofs.Single.Arithmetic

/-! Squares in order. Where a square is finite and has all its digits, a number that is greater has a
greater one, so what has a square no greater is no greater itself. -/
namespace SharedWorld.Single
open Float.Model Float.Model.UnpackedFloat

variable {x : Single}

theorem square_nearest (number : x.isNaN = false) :
    NearestTo (x.amount * x.amount) (x * x).view := by
  rcases finite_or_infinity number with finite | ⟨s, infinite⟩
  · exact mul_nearest finite finite
  · have : (x * x).view = .infinity .positive := by
      rw [view_mul, infinite]
      cases s <;> rfl
    rw [this, amount_of_infinity infinite]
    refine .infinity ?_
    cases s <;> norm_num [Sign.apply]

theorem finite_of_square (h : Finite (x * x).view) : Finite x.view := by
  refine (finite_or_infinity (numbers_of_mul (finite_iff.mp h).1).1).resolve_right fun ⟨s, infinite⟩ => ?_
  rw [view_mul, infinite] at h
  cases s <;> exact h

theorem square_nonneg (x : Single) : 0 ≤ (x * x).amount := by
  cases number : (x * x).isNaN with
  | true =>
    rw [amount, view_eq_notANumber.mpr number]
    rfl
  | false => exact (square_nearest (numbers_of_mul number).1).nonneg (mul_self_nonneg _)

theorem mul_neg_self (u : UnpackedFloat) :
    UnpackedFloat.mul .binary32 u.neg u.neg = UnpackedFloat.mul .binary32 u u := by
  have sign (s : Sign) : -s * -s = s * s := by cases s <;> rfl
  cases u with
  | notANumber => rfl
  | zero s | infinity s | finite s =>
    unfold UnpackedFloat.mul UnpackedFloat.neg
    dsimp only
    rw [sign]

theorem square_le_square {r d : Single} (hr : r.isNaN = false) (hd : d.isNaN = false)
    (le : |r.amount| ≤ |d.amount|) : (r * r).amount ≤ (d * d).amount := by
  have square := square_nearest hr
  rw [← abs_mul_abs_self r.amount] at square
  rcases le.lt_or_eq with less | same
  · have square' := square_nearest hd
    rw [← abs_mul_abs_self d.amount] at square'
    exact square.mono square' (mul_self_lt_mul_self (abs_nonneg _) less)
  have same : r.amount = d.amount ∨ r.amount = (-d).amount := by
    rw [amount_neg]
    exact abs_eq_abs.mp same
  have level : r.view = d.view ∨ r.view = (-d).view ∨ r.amount = 0 := by
    rcases same with same | same
    · exact (level_of_amount hr hd same).imp_right .inr
    · exact .inr (level_of_amount hr ((neg_isNaN d).trans hd) same)
  rcases level with same | same | zero
  · exact (congrArg amountOf (by rw [view_mul, view_mul, same])).le
  · rw [view_neg] at same
    exact (congrArg amountOf (by rw [view_mul, view_mul, same, mul_neg_self])).le
  · refine (square.le (.zero .positive) ?_).trans (square_nonneg d)
    rw [zero, abs_zero, mul_zero]
    rfl

theorem exists_multiple {k : Nat} {t : Int} (short : k ≤ 0x1000000) (least : -149 ≤ t)
    (greatest : t ≤ 104) : ∃ v, Number v ∧ amountOf v = k * 2 ^ t := by
  by_cases none : k = 0
  · exact ⟨.zero .positive, .zero _, by simp [amountOf, none]⟩
  rcases short.lt_or_eq with short | rfl
  · have digits : k.log2 < 24 := (Nat.log2_lt none).mpr short
    -- It is written with 24 digits, or with as many as the least exponent leaves.
    obtain ⟨n, hn⟩ : ∃ n : Nat, (n : Int) = Min.min (23 - k.log2 : Int) (t + 149) :=
      ⟨(Min.min (23 - k.log2 : Int) (t + 149)).toNat, by omega⟩
    have pos : 0 < k * 2 ^ n := by positivity
    have size : (k * 2 ^ n).log2 = k.log2 + n := by
      rw [← Nat.shiftLeft_eq, log2_shiftLeft (Nat.pos_of_ne_zero none)]
    refine ⟨.finite .positive (k * 2 ^ n) (t - n) pos, .finite ⟨⟨?_, by omega, ?_⟩, by omega⟩, ?_⟩
    · have : (k * 2 ^ n).log2 < 24 := by omega
      exact (Nat.log2_lt pos.ne').mp this
    · refine or_iff_not_imp_right.mpr fun above => ?_
      have : 23 ≤ (k * 2 ^ n).log2 := by omega
      exact (Nat.le_log2 pos.ne').mp this
    · have split : (2 : ℚ) ^ t = 2 ^ n * 2 ^ (t - n) := by rw [← two_zpow_add_nat, sub_add_cancel]
      rw [amountOf_finite, split]
      push_cast
      simp [Sign.apply, mul_assoc]
  · rcases greatest.lt_or_eq with fits | rfl
    · refine ⟨.finite .positive 0x800000 (t + 1) (by decide),
        .finite ⟨⟨by decide, by omega, .inl le_rfl⟩, by omega⟩, ?_⟩
      rw [amountOf_finite, zpow_add_one₀ two_ne_zero]
      norm_num [Sign.apply]
      ring
    · refine ⟨.infinity .positive, .infinity _, ?_⟩
      rw [amountOf_infinity.1]
      norm_num

theorem apart_of_same {q r : ℚ} {k : Nat} {t : Int} {u v : UnpackedFloat} (fits : Fits k t)
    (full : 0x800000 ≤ k) (hu : NearestTo q u) (hv : NearestTo r v) (hq : amountOf u = k * 2 ^ t)
    (hr : amountOf v = k * 2 ^ t) : (2 * k - 1) * 2 ^ t ≤ 2 * q ∧ r - q ≤ 2 ^ t := by
  have unit := two_zpow_pos t
  obtain ⟨short, least, _⟩ := fits.toShaped
  obtain ⟨b, hb, below⟩ := exists_multiple (k := k - 1) (t := t) (by omega) least fits.greatest
  obtain ⟨a, ha, above⟩ := exists_multiple (k := k + 1) (t := t) (by omega) least fits.greatest
  rw [Nat.cast_sub (by omega), Nat.cast_one] at below
  rw [Nat.cast_add, Nat.cast_one] at above
  -- Both are nearer to this multiple than to the one below and to the one above.
  have first := (nearer_greater (by linarith)).mp (hu.near b hb)
  have second := (nearer_less (by linarith)).mp (hv.near a ha)
  constructor <;> linarith

theorem next_le {m : Nat} {e : Int} {a : ℚ} (shaped : Shaped m e) (h : Spaced e a)
    (less : m * 2 ^ e < a) : (m + 1) * 2 ^ e ≤ a := by
  have unit := two_zpow_pos e
  rcases h with ⟨j, rfl⟩ | ⟨above, small⟩
  · have step : (m : ℤ) < j := by exact_mod_cast lt_of_mul_lt_mul_right less unit.le
    have step : ((m : ℚ) + 1) ≤ j := by exact_mod_cast step
    exact mul_le_mul_of_nonneg_right step unit.le
  · have full : (0x800000 : ℚ) ≤ m := by exact_mod_cast shaped.full.resolve_right above.ne'
    have := (le_abs_self a).trans_lt small
    have := mul_le_mul_of_nonneg_right full unit.le
    linarith

theorem root_form {r : Single} (hr : r.isNaN = false) (nonneg : 0 ≤ r.amount)
    (normal : 2 ^ (-126 : ℤ) ≤ (r * r).amount) (reached : (r * r).amount < 2 ^ (128 : ℤ)) :
    ∃ m e, Fits m e ∧ 0x800000 ≤ m ∧ r.amount = m * 2 ^ e := by
  have square := square_nearest hr
  have least := two_zpow_pos (-126)
  have some : r.amount ≠ 0 := fun zero => by
    have := square.le (.zero .positive) (by rw [zero, mul_zero]; rfl)
    exact absurd (least.trans_le (normal.trans this)) (lt_irrefl _)
  have within : r.amount < 2 ^ (128 : ℤ) := by
    by_contra beyond
    have beyond : 2 ^ (128 : ℤ) ≤ r.amount * r.amount := by
      have := not_lt.mp beyond
      have one : (1 : ℚ) ≤ r.amount := le_trans (by norm_num) this
      nlinarith
    have := square.ge (.infinity .positive) (by rwa [amountOf_infinity.1])
    rw [amountOf_infinity.1] at this
    exact absurd reached this.not_gt
  obtain ⟨m, e, pos, _, fits, value⟩ := finite_form (nonneg.lt_of_ne some.symm) within
  refine ⟨m, e, fits, ?_, value⟩
  by_contra short
  -- The square of a number with fewer digits is rounded to zero, or to the least number at most.
  obtain rfl : e = -149 := fits.full.resolve_left short
  have short : (m : ℚ) < 0x800000 := by exact_mod_cast not_le.mp short
  obtain ⟨v, hv, tiny⟩ := exists_multiple (k := 1) (t := -149) (by decide) le_rfl (by decide)
  have small : r.amount * r.amount ≤ amountOf v := by
    rw [value, tiny]
    have : (m : ℚ) * m ≤ 0x800000 * 0x800000 :=
      mul_le_mul short.le short.le (Nat.cast_nonneg m) (by norm_num)
    norm_num
    linarith
  have := normal.trans (square.le hv small)
  rw [tiny] at this
  norm_num at this

/-- What lies between the squares of neighbouring numbers is more than one last digit of them. -/
theorem square_gap {m k : Nat} {e t : Int} (short : m < 0x1000000) (full : 0x800000 ≤ m)
    (full' : 0x800000 ≤ k) (least : (2 * k - 1) * 2 ^ t ≤ 2 * (m * m * 2 ^ (2 * e) : ℚ)) :
    2 ^ t < (2 * m + 1) * (2 : ℚ) ^ (2 * e) := by
  by_contra wide
  have unit := two_zpow_pos (2 * e)
  have short : (m : ℚ) ≤ 0xffffff := by exact_mod_cast Nat.le_of_lt_succ short
  have full : (0x800000 : ℚ) ≤ m := by exact_mod_cast full
  have full' : (0x800000 : ℚ) ≤ k := by exact_mod_cast full'
  have digits : 2 * e + 24 < t := by
    refine (zpow_lt_zpow_iff_right₀ (one_lt_two (α := ℚ))).mp ?_
    rw [zpow_add₀ two_ne_zero]
    have := mul_le_mul_of_nonneg_right full unit.le
    norm_num
    linarith
  have apart : (2 : ℚ) ^ (2 * e + 25) ≤ 2 ^ t := zpow_le_zpow_right₀ one_le_two (by omega)
  rw [zpow_add₀ two_ne_zero] at apart
  have squared : (m : ℚ) * m ≤ 0xffffff * 0xffffff := mul_self_le_mul_self (Nat.cast_nonneg m) short
  have most := mul_le_mul_of_nonneg_right squared unit.le
  have least' := mul_le_mul_of_nonneg_right (by linarith : (0xffffff : ℚ) ≤ 2 * k - 1) (two_zpow_pos t).le
  norm_num at apart
  linarith

/-- Where the square of a number is finite and has all its digits, a number that is greater has a
greater square. -/
theorem square_lt_square {r d : Single} (hr : r.isNaN = false) (hd : d.isNaN = false)
    (nonneg : 0 ≤ r.amount) (normal : 2 ^ (-126 : ℤ) ≤ (r * r).amount)
    (reached : (r * r).amount < 2 ^ (128 : ℤ)) (less : r.amount < |d.amount|) :
    (r * r).amount < (d * d).amount := by
  have square := square_nearest hr
  have square' := square_nearest hd
  have greater : r.amount * r.amount < |d.amount| * |d.amount| := mul_self_lt_mul_self nonneg less
  rw [← abs_mul_abs_self d.amount] at square'
  -- Were both squares rounded to one number, they would differ by one last digit at most; those of
  -- neighbouring numbers differ by more.
  refine (square.mono square' greater).lt_of_ne fun same => ?_
  obtain ⟨k, t, _, _, fits_square, value_square⟩ :=
    finite_form (lt_of_lt_of_le (two_zpow_pos _) normal) reached
  have full_square : 0x800000 ≤ k := by
    refine fits_square.full.elim id fun last => ?_
    rw [value_square, last] at normal
    have : (0x800000 : ℚ) * 2 ^ (-149 : ℤ) ≤ k * 2 ^ (-149 : ℤ) := by norm_num at normal ⊢; linarith
    exact_mod_cast le_of_mul_le_mul_right this (two_zpow_pos _)
  obtain ⟨m, e, fits, full, value⟩ := root_form hr nonneg normal reached
  obtain ⟨low, gap⟩ := apart_of_same fits_square full_square square square' value_square
    (same ▸ value_square)
  have next : (m + 1) * 2 ^ e ≤ |d.amount| :=
    next_le fits.toShaped (abs_amount d ▸ amountOf_spaced d.abs.view_canonical e) (value ▸ less)
  have double : (2 : ℚ) ^ e * 2 ^ e = 2 ^ (2 * e) := by rw [← zpow_add₀ two_ne_zero, two_mul]
  have root : r.amount * r.amount = m * m * 2 ^ (2 * e) := by rw [value, ← double]; ring
  have next : (m + 1) * (m + 1) * 2 ^ (2 * e) ≤ |d.amount| * |d.amount| := by
    calc ((m : ℚ) + 1) * (m + 1) * 2 ^ (2 * e)
      _ = (m + 1) * 2 ^ e * ((m + 1) * 2 ^ e) := by rw [← double]; ring
      _ ≤ |d.amount| * |d.amount| := mul_self_le_mul_self (by positivity) next
  have wide := square_gap fits.short full full_square (root ▸ low)
  linarith

theorem amount_zero : amount .zero = 0 := rfl

theorem amount_infinity : amount .infinity = 2 ^ (128 : ℤ) := amountOf_infinity.1

theorem finite_of_square_lt {x : Single} (h : x * x < .infinity) : Finite x.view := by
  obtain ⟨number, _, less⟩ := lt_iff.mp h
  rw [amount_infinity] at less
  exact finite_of_square (finite_iff.mpr ⟨number, (abs_of_nonneg (square_nonneg x)).trans_lt less⟩)

/-- The least number that has all its digits. -/
def leastNormal : Single := ⟨0x00800000⟩

theorem amount_leastNormal : leastNormal.amount = 2 ^ (-126 : ℤ) := by
  have form : leastNormal.view = .finite .positive 0x800000 (-149) (by decide) := rfl
  rw [amount, form, amountOf_finite]
  norm_num [Sign.apply]

theorem abs_le_of_square_le {r d : Single} (nonneg : .zero ≤ r) (normal : leastNormal ≤ r * r)
    (finite : r * r < .infinity) (le : d * d ≤ r * r) : d.abs ≤ r := by
  obtain ⟨_, hr, nonneg⟩ := le_iff.mp nonneg
  obtain ⟨_, _, normal⟩ := le_iff.mp normal
  obtain ⟨_, _, finite⟩ := lt_iff.mp finite
  obtain ⟨hd, _, le⟩ := le_iff.mp le
  rw [amount_zero] at nonneg
  rw [amount_leastNormal] at normal
  rw [amount_infinity] at finite
  have hd := (numbers_of_mul hd).1
  refine le_iff.mpr ⟨(abs_isNaN d).trans hd, hr, ?_⟩
  rw [abs_amount]
  by_contra greater
  exact absurd le (square_lt_square hr hd nonneg normal finite (not_le.mp greater)).not_ge

end SharedWorld.Single
