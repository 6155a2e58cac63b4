import SharedWorld.Proofs.Single.Quotient
import SharedWorld.Proofs.Single.Squares

/-! Multiples of a number and the whole parts of quotients by it. A quotient is rounded, and yet it
reaches a whole number only if the dividend reaches that multiple of the divisor, where the multiple is a
number itself. So the whole parts of two quotients tell how far apart the dividends are. -/
namespace SharedWorld.Single
open Float.Model Float.Model.UnpackedFloat

section
variable {u v : UnpackedFloat}

/-- A number above zero, written so that the next one below it is one last digit away. -/
structure Tall (j : Nat) (t : Int) : Prop where
  short : j ≤ 0x1000000
  tall : 0x800000 < j ∨ t = -149
  least : -149 ≤ t
  greatest : t ≤ 104

theorem exists_tall (hu : Canonical u) (some : 0 < amountOf u) :
    ∃ j t, Tall j t ∧ amountOf u = j * 2 ^ t := by
  rcases positive_form hu some with rfl | ⟨m, e, _, rfl, ⟨⟨short, least, full⟩, greatest⟩, value⟩
  · refine ⟨0x1000000, 104, ⟨le_rfl, .inl (by decide), by decide, le_rfl⟩, ?_⟩
    rw [amountOf_infinity.1]
    norm_num
  · by_cases last : m = 0x800000 ∧ e ≠ -149
    · refine ⟨0x1000000, e - 1, ⟨le_rfl, .inl (by decide), by omega, by omega⟩, ?_⟩
      rw [value, last.1, zpow_sub_one₀ two_ne_zero]
      push_cast
      ring
    · exact ⟨m, e, ⟨short.le, by omega, least, greatest⟩, value⟩

theorem Tall.le_previous {j : Nat} {t : Int} {a : ℚ} (h : Tall j t) (spaced : Spaced t a)
    (less : a < j * 2 ^ t) : a ≤ (j - 1) * 2 ^ t := by
  have unit := two_zpow_pos t
  rcases spaced with ⟨i, rfl⟩ | ⟨above, small⟩
  · have step : i < (j : ℤ) := by exact_mod_cast lt_of_mul_lt_mul_right less unit.le
    have step : (i : ℚ) ≤ j - 1 := by exact_mod_cast Int.le_sub_one_of_lt step
    exact mul_le_mul_of_nonneg_right step unit.le
  · have tall : (0x800000 : ℚ) ≤ j - 1 := by
      have : (0x800000 : ℚ) + 1 ≤ j := by exact_mod_cast h.tall.resolve_right above.ne'
      linarith
    have := (le_abs_self a).trans_lt small
    have := mul_le_mul_of_nonneg_right tall unit.le
    linarith

theorem gap_below (hu : Canonical u) (hv : Canonical v) (some : 0 < amountOf v)
    (less : amountOf u < amountOf v) : amountOf v ≤ 0x1000000 * (amountOf v - amountOf u) := by
  obtain ⟨j, t, tall, value⟩ := exists_tall hv some
  have previous := tall.le_previous (amountOf_spaced hu t) (value ▸ less)
  have short : (j : ℚ) ≤ 0x1000000 := by exact_mod_cast tall.short
  have := mul_le_mul_of_nonneg_right short (two_zpow_pos t).le
  rw [value]
  linarith

theorem gap_above (hu : Canonical u) (hv : Canonical v) (some : 0 < amountOf v)
    (less : amountOf v < amountOf u) : amountOf v < 0x1000000 * (amountOf u - amountOf v) := by
  rcases positive_form hv some with rfl | ⟨m, e, _, rfl, fits, value⟩
  · have within := (abs_le.mp (abs_amountOf_le hu)).2
    rw [amountOf_infinity.1] at less
    exact absurd within less.not_ge
  · have next := next_le fits.toShaped (amountOf_spaced hu e) (value ▸ less)
    have short : (m : ℚ) < 0x1000000 := by exact_mod_cast fits.short
    have := mul_lt_mul_of_pos_right short (two_zpow_pos e)
    rw [value]
    linarith

end

section
variable {k : Nat}

theorem exists_whole (short : k ≤ 0x1000000) : ∃ v, Number v ∧ amountOf v = k := by
  obtain ⟨v, hv, value⟩ := exists_multiple short (by decide : (-149 : ℤ) ≤ 0) (by decide)
  exact ⟨v, hv, by simpa using value⟩

theorem whole_lt {j : Nat} {t : Int} (some : 0 < k) (value : (k : ℚ) = j * 2 ^ t)
    (short : j ≤ 0x1000000) : t ≠ -149 := by
  rintro rfl
  have one : (1 : ℚ) ≤ k := by exact_mod_cast some
  have short : (j : ℚ) ≤ 0x1000000 := by exact_mod_cast short
  norm_num at value
  linarith

variable (some : 0 < k) (short : k ≤ 0x1000000)
include some short

theorem exists_below_whole : ∃ v, Number v ∧ amountOf v < k ∧ 0x800000 * (k - amountOf v) < k := by
  obtain ⟨w, hw, whole⟩ := exists_whole short
  obtain ⟨j, t, tall, value⟩ := exists_tall hw.canonical (whole ▸ Nat.cast_pos.mpr some)
  rw [whole] at value
  have full : 0x800000 < j := tall.tall.resolve_right (whole_lt some value tall.short)
  obtain ⟨v, hv, previous⟩ :=
    exists_multiple (k := j - 1) ((Nat.sub_le j 1).trans tall.short) tall.least tall.greatest
  rw [Nat.cast_sub (by omega), Nat.cast_one] at previous
  have unit := two_zpow_pos t
  have full : (0x800000 : ℚ) < j := by exact_mod_cast full
  have := mul_lt_mul_of_pos_right full unit
  refine ⟨v, hv, ?_, ?_⟩ <;> rw [previous, value] <;> linarith

theorem exists_above_whole : ∃ v, Number v ∧ k < amountOf v ∧ 0x800000 * (amountOf v - k) ≤ k := by
  obtain ⟨w, hw, whole⟩ := exists_whole short
  have finite : w ≠ .infinity .positive := by
    rintro rfl
    rw [amountOf_infinity.1] at whole
    have : (k : ℚ) ≤ 0x1000000 := by exact_mod_cast short
    norm_num [← whole] at this
  obtain ⟨m, e, _, rfl, fits, value⟩ :=
    (positive_form hw.canonical (whole ▸ Nat.cast_pos.mpr some)).resolve_left finite
  rw [whole] at value
  have full : 0x800000 ≤ m := fits.full.resolve_right (whole_lt some value fits.short.le)
  obtain ⟨v, hv, next⟩ := exists_multiple (k := m + 1) fits.short fits.least fits.greatest
  rw [Nat.cast_add, Nat.cast_one] at next
  have unit := two_zpow_pos e
  have full : (0x800000 : ℚ) ≤ m := by exact_mod_cast full
  have := mul_le_mul_of_nonneg_right full unit.le
  refine ⟨v, hv, ?_, ?_⟩ <;> rw [next, value] <;> linarith

end

theorem exists_integer {k : Int} (short : k.natAbs ≤ 0x1000000) : ∃ v, Number v ∧ amountOf v = k := by
  obtain ⟨v, hv, value⟩ := exists_whole short
  rcases Int.natAbs_eq k with positive | negative
  · exact ⟨v, hv, by rw [value, positive]; simp⟩
  · exact ⟨v.neg, hv.neg, by rw [amountOf_neg, value, negative]; simp⟩

theorem amount_of_value {x : Single} {m : Nat} {e : Int} (h : x.value = .finite false m e) :
    Finite x.view ∧ x.amount = m * 2 ^ e := by
  rw [value_eq] at h
  unfold amount
  cases hv : x.view with
  | notANumber | infinity => rw [hv] at h; cases h
  | zero s =>
    rw [hv] at h
    injection h with _ none _
    exact ⟨trivial, by rw [← none, Nat.cast_zero, zero_mul]; rfl⟩
  | finite s m' e' pos =>
    rw [hv] at h
    injection h with sign mantissa exponent
    subst mantissa exponent
    cases s with
    | positive => exact ⟨trivial, by simp [amountOf_finite, Sign.apply]⟩
    | negative => cases sign

theorem log2_scaled {n : Nat} (some : 0 < n) (short : n < 0x1000000) :
    n.log2 ≤ 23 ∧ 0x800000 ≤ n <<< (23 - n.log2) ∧ n <<< (23 - n.log2) < 0x1000000 := by
  have digits : n.log2 < 24 := (Nat.log2_lt some.ne').mpr short
  have size : (n <<< (23 - n.log2)).log2 = 23 := by
    rw [log2_shiftLeft some]
    omega
  have pos : n <<< (23 - n.log2) ≠ 0 := by
    intro none
    rw [none] at size
    cases size
  have short : (n <<< (23 - n.log2)).log2 < 24 := by omega
  exact ⟨by omega, (Nat.le_log2 pos).mp size.ge, (Nat.log2_lt pos).mp short⟩

theorem value_ofNat {n : Nat} (some : 0 < n) (short : n < 0x1000000) :
    (ofNat n).value = .finite false (n <<< (23 - n.log2)) (n.log2 - 23) := by
  obtain ⟨few, full, less⟩ := log2_scaled some short
  have unit : Max.max ((n.log2 : Int) + 0 - 23) (-149) = n.log2 - 23 := by omega
  have shift : (0 - ((n.log2 : Int) - 23)).toNat = 23 - n.log2 := by omega
  have exponent : ((n.log2 : Int) - 23 + 150).toNat = n.log2 + 127 := by omega
  have rounded : ofNat n = signed false
      ((n.log2 + 127) * 0x800000 + (n <<< (23 - n.log2) - 0x800000)) := by
    unfold ofNat ofScaled leadingBit
    dsimp only
    rw [if_neg some.ne', unit, if_pos (by omega : (n.log2 : Int) - 23 ≤ 0), shift, exponent,
      if_neg full.not_gt, Nat.min_eq_left (by omega)]
  have bits : (ofNat n).bits.toNat =
      (n.log2 + 127) * 0x800000 + (n <<< (23 - n.log2) - 0x800000) := by
    have room : (n.log2 + 127) * 0x800000 + (n <<< (23 - n.log2) - 0x800000) < 4294967296 := by omega
    rw [rounded]
    exact UInt32.toNat_ofNat_of_lt room
  have sign : (ofNat n).negative = false := by
    have half : (0x80000000 : UInt32).toNat = 0x80000000 := rfl
    exact decide_eq_false (by rw [UInt32.le_iff_toNat_le]; omega)
  have field : (ofNat n).bits.toNat / 0x800000 % 256 = n.log2 + 127 := by omega
  have fraction : (ofNat n).bits.toNat % 0x800000 = n <<< (23 - n.log2) - 0x800000 := by omega
  unfold value leadingBit
  simp only [field, fraction, sign]
  rw [if_neg (by omega), if_neg (by omega)]
  have digits : n <<< (23 - n.log2) - 0x800000 + 0x800000 = n <<< (23 - n.log2) := by omega
  have digit : ((n.log2 + 127 : Nat) : Int) - 150 = n.log2 - 23 := by omega
  rw [digits, digit]

theorem ofNat_amount {n : Nat} (short : n < 0x1000000) :
    Finite (ofNat n).view ∧ (ofNat n).amount = n := by
  rcases Nat.eq_zero_or_pos n with rfl | some
  · exact ⟨finite_of_isFinite (by decide), amount_zero.trans Nat.cast_zero.symm⟩
  obtain ⟨few, _⟩ := log2_scaled some short
  obtain ⟨finite, value⟩ := amount_of_value (value_ofNat some short)
  refine ⟨finite, value.trans ?_⟩
  obtain ⟨k, hk⟩ := Nat.le.dest few
  have shift : 23 - n.log2 = k := by omega
  have exponent : (n.log2 : Int) - 23 = -k := by omega
  rw [shift, exponent, Nat.shiftLeft_eq, zpow_neg, zpow_natCast]
  push_cast
  exact mul_inv_cancel_right₀ (by positivity) _

section
variable {x y c : Single} (finite : Finite c.view) (positive : 0 < c.amount) (hx : Finite x.view)
include finite positive hx

theorem lt_of_div_lt {k : Int} (short : k.natAbs ≤ 0x1000000) (less : (x / c).amount < k) :
    x.amount < k * c.amount := by
  by_contra reached
  obtain ⟨v, hv, value⟩ := exists_integer short
  have quotient := (div_nearest finite positive hx).ge hv
  rw [value, le_div_iff₀ positive] at quotient
  exact absurd less (quotient (not_lt.mp reached)).not_gt

variable {k : Nat} (some : 0 < k) (short : k ≤ 0x1000000) {v : UnpackedFloat} (hv : Number v)
  (multiple : amountOf v = k * c.amount)
include some short hv multiple

theorem mul_le_of_le_div (reached : k ≤ (x / c).amount) : k * c.amount ≤ x.amount := by
  by_contra less
  have less := not_le.mp less
  obtain ⟨w, hw, below, near⟩ := exists_below_whole some short
  have quotient : (x / c).amount + amountOf w ≤ 2 * (x.amount / c.amount) :=
    (nearer_greater (below.trans_le reached)).mp ((div_nearest finite positive hx).near w hw)
  have gap := gap_below x.view_canonical hv.canonical (by rw [multiple]; positivity) (multiple ▸ less)
  have apart : (k : ℚ) ≤ 0x1000000 * (k - x.amount / c.amount) := by
    have split : k - x.amount / c.amount = (k * c.amount - x.amount) / c.amount := by field_simp
    rw [split, ← mul_div_assoc, le_div_iff₀ positive, ← multiple]
    exact gap
  linarith

theorem neg_mul_le_of_le_div (reached : -k ≤ (x / c).amount) : -(k * c.amount) ≤ x.amount := by
  by_contra less
  have less : k * c.amount < -x.amount := by linarith [not_le.mp less]
  obtain ⟨w, hw, above, near⟩ := exists_above_whole some short
  have below : amountOf w.neg < (x / c).amount := by
    rw [amountOf_neg]
    linarith
  have quotient : (x / c).amount + amountOf w.neg ≤ 2 * (x.amount / c.amount) :=
    (nearer_greater below).mp ((div_nearest finite positive hx).near w.neg hw.neg)
  rw [amountOf_neg] at quotient
  have gap := gap_above (-x).view_canonical hv.canonical (by rw [multiple]; positivity)
    (by rw [multiple, ← amount, amount_neg]; exact less)
  rw [← amount, amount_neg, multiple] at gap
  have apart : (k : ℚ) < 0x1000000 * (-(x.amount / c.amount) - k) := by
    have split : -(x.amount / c.amount) - k = (-x.amount - k * c.amount) / c.amount := by field_simp
    rw [split, ← mul_div_assoc, lt_div_iff₀ positive]
    exact gap
  linarith

end

/-- The multiples of a number up to this one are computed as they are. -/
structure Ruled (c : Single) (limit : Nat) : Prop where
  short : limit < 0x1000000
  exact : ∀ k ≤ limit, (ofNat k * c).amount = k * c.amount

theorem ruled_of_digits {c : Single} {limit m : Nat} {e : Int} (value : c.amount = m * 2 ^ e)
    (some : 0 < m) (short : limit * m < 0x1000000) (least : -149 ≤ e) (greatest : e ≤ 104)
    (finite : Finite c.view) : Ruled c limit := by
  have fewer {k : Nat} (hk : k ≤ limit) : k * m < 0x1000000 :=
    (Nat.mul_le_mul_right m hk).trans_lt short
  refine ⟨(Nat.le_mul_of_pos_right limit some).trans_lt short, fun k hk => ?_⟩
  obtain ⟨whole, count⟩ := ofNat_amount ((Nat.le_mul_of_pos_right k some).trans_lt (fewer hk))
  obtain ⟨v, hv, multiple⟩ := exists_multiple (fewer hk).le least greatest
  have product := mul_nearest whole finite
  have exact : (ofNat k).amount * c.amount = amountOf v := by
    rw [count, value, multiple]
    push_cast
    ring
  rw [exact] at product
  rw [amount, product.eq hv, ← exact, count]

section
variable {x y c : Single} {limit : Nat} (finite : Finite c.view) (ruled : Ruled c limit)
include finite ruled

theorem Ruled.number {k : Nat} (hk : k ≤ limit) : Number (ofNat k * c).view :=
  (mul_nearest (ofNat_amount (hk.trans_lt ruled.short)).1 finite).number

variable (positive : 0 < c.amount) (hx : Finite x.view) (hy : Finite y.view)
include positive hx hy

theorem Ruled.le_sub_zero {n : Nat} (wide : n ≤ limit) (above : 0 ≤ (y / c).amount)
    (below : (x / c).amount < 0) (less : x.amount < -(n * c.amount)) :
    n * c.amount ≤ y.amount - x.amount := by
  rcases Nat.eq_zero_or_pos n with rfl | some
  · have order : ¬ y ≤ x := fun le =>
      absurd (le_iff.mp (Single.div_le_div_right finite positive le)).2.2 (below.trans_le above).not_ge
    have := Single.lt_of_not_le (finite_iff.mp hy).1 (finite_iff.mp hx).1 order
    have := (lt_iff.mp this).2.2
    push_cast
    linarith
  have value := ruled.exact n wide
  have positive_multiple : 0 < (ofNat n * c).amount := by
    rw [value]
    positivity
  have gap : (ofNat n * c).amount < 0x1000000 * ((-x).amount - (ofNat n * c).amount) := by
    refine gap_above (-x).view_canonical (ruled.number finite wide).canonical positive_multiple ?_
    rw [← amount, ← amount, amount_neg, value]
    linarith
  rw [amount_neg, value] at gap
  obtain ⟨v, hv, tiny⟩ := exists_multiple (k := 1) (t := -24) (by decide) (by decide) (by decide)
  have small : -amountOf v < y.amount / c.amount := by
    by_contra more
    have rounded := (div_nearest finite positive hy).le hv.neg (amountOf_neg v ▸ not_lt.mp more)
    rw [amountOf_neg, tiny, ← amount] at rounded
    norm_num at rounded
    linarith
  rw [tiny, lt_div_iff₀ positive] at small
  norm_num at small
  have one : (1 : ℚ) ≤ n := by exact_mod_cast some
  have := mul_le_mul_of_nonneg_right one positive.le
  linarith

/-- Numbers whose quotients lie on either side of so many whole numbers are so many multiples apart. -/
theorem Ruled.le_sub {k : Int} {n : Nat} (high : k.natAbs ≤ limit) (low : (k - n).natAbs ≤ limit)
    (wide : n ≤ limit) (above : k ≤ (y / c).amount) (below : (x / c).amount < (k - n : Int)) :
    n * c.amount ≤ y.amount - x.amount := by
  have short := ruled.short
  have less := lt_of_div_lt finite positive hx (k := k - n) (by omega) below
  push_cast at less
  rcases lt_trichotomy k 0 with negative | rfl | pos
  · obtain ⟨j, rfl⟩ : ∃ j : Nat, k = -j := ⟨k.natAbs, by omega⟩
    have more := neg_mul_le_of_le_div finite positive hy (k := j) (by omega) (by omega)
      (ruled.number finite (by omega)) (ruled.exact j (by omega)) (by exact_mod_cast above)
    push_cast at less
    linarith
  · rw [Int.cast_zero] at above less
    refine ruled.le_sub_zero finite positive hx hy wide above (below.trans_le ?_) (by linarith)
    push_cast
    linarith [n.cast_nonneg (α := ℚ)]
  · obtain ⟨j, rfl⟩ : ∃ j : Nat, k = j := ⟨k.natAbs, by omega⟩
    have more := mul_le_of_le_div finite positive hy (k := j) (by omega) (by omega)
      (ruled.number finite (by omega)) (ruled.exact j (by omega)) (by exact_mod_cast above)
    push_cast at less
    linarith

end
end SharedWorld.Single
