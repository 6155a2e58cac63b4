import SharedWorld.Proofs.Single.Arithmetic

/-! Quotients and whole parts in order. Numbers divided by a positive number stay in order, and so do
the greatest integers not above them. -/
namespace SharedWorld.Single
open Float.Model Float.Model.UnpackedFloat

theorem fraction_describes (m : Nat) {d : Nat} (some : 0 < d) :
    Describes (.ofMantissaAndAccuracy (m / d) (accuracyOfFraction (m % d) d)) ((m : ℚ) / d) := by
  have unit : (0 : ℚ) < d := by exact_mod_cast some
  have whole : (m : ℚ) = d * (m / d : Nat) + (m % d : Nat) := by
    exact_mod_cast (Nat.div_add_mod m d).symm
  have parts : (m : ℚ) / d = (m / d : Nat) + ((m % d : Nat) : ℚ) / d := by
    rw [whole, add_div, mul_div_cancel_left₀ _ unit.ne']
  have less : ((m % d : Nat) : ℚ) / d < 1 := by
    rw [div_lt_one unit]
    exact_mod_cast Nat.mod_lt m some
  rw [parts]
  unfold accuracyOfFraction
  split
  · next none => simp [Describes, ExtendedMantissa.ofMantissaAndAccuracy, none]
  · next rest =>
    have rest : (0 : ℚ) < ((m % d : Nat) : ℚ) / d :=
      div_pos (by exact_mod_cast Nat.pos_of_ne_zero rest) unit
    rcases lt_trichotomy (2 * (m % d)) d with low | half | high
    · rw [compare_lt_iff_lt.mpr low]
      have low : ((m % d : Nat) : ℚ) / d < 1 / 2 := by
        rw [div_lt_div_iff₀ unit two_pos]
        have : (2 : ℚ) * (m % d : Nat) < d := by exact_mod_cast low
        linarith
      exact ⟨lt_add_of_pos_right _ rest, (add_lt_add_iff_left _).mpr low⟩
    · rw [compare_eq_iff_eq.mpr half]
      have half : ((m % d : Nat) : ℚ) / d = 1 / 2 := by
        rw [div_eq_div_iff unit.ne' two_ne_zero]
        have : (2 : ℚ) * (m % d : Nat) = d := by exact_mod_cast half
        linarith
      exact congrArg _ half
    · rw [compare_gt_iff_gt.mpr high]
      have high : 1 / 2 < ((m % d : Nat) : ℚ) / d := by
        rw [div_lt_div_iff₀ two_pos unit]
        have : (d : ℚ) < 2 * (m % d : Nat) := by exact_mod_cast high
        linarith
      exact ⟨(add_lt_add_iff_left _).mpr high, (add_lt_add_iff_left _).mpr less⟩

/-- A quotient has all its digits where the dividend is that much longer than the divisor. -/
theorem quotient_digits {m d : Nat} (some : 0 < d) (enough : d.log2 + 24 ≤ m.log2) :
    0x800000 ≤ m / d := by
  have long : m ≠ 0 := by
    rintro rfl
    have : Nat.log2 0 = 0 := rfl
    omega
  rw [Nat.le_div_iff_mul_le some]
  calc 0x800000 * d
    _ ≤ 0x800000 * 2 ^ (d.log2 + 1) := Nat.mul_le_mul_left _ Nat.lt_log2_self.le
    _ = 2 ^ (d.log2 + 24) := by
      rw [show d.log2 + 24 = 23 + (d.log2 + 1) by omega, pow_add 2 23]
      rfl
    _ ≤ m := (Nat.le_log2 long).mp enough

theorem div_nearestTo {s s' : Sign} {m m' : Nat} {e e' : Int} {pos : 0 < m} {pos' : 0 < m'} :
    NearestTo (amountOf (.finite s m e pos) / amountOf (.finite s' m' e' pos'))
      (UnpackedFloat.unpack .binary32 (pack .binary32
        (UnpackedFloat.div .binary32 (.finite s m e pos) (.finite s' m' e' pos')))) := by
  let t := Min.min (e - e') (Max.max (m.log2 + 1 + e - (m'.log2 + 1 + e') - 24) (-149))
  obtain ⟨n, shift, apart⟩ : ∃ n : Nat, (e - e' - t).toNat = n ∧ e - e' = t + n :=
    ⟨(e - e' - t).toNat, rfl, by omega⟩
  -- The quotient has all its digits, or it is as small as numbers are.
  have digits : t ≤ -149 ∨ 0x800000 ≤ m <<< n / m' := by
    refine or_iff_not_imp_left.mpr fun above => quotient_digits pos' ?_
    rw [log2_shiftLeft pos n]
    omega
  have low : t ≤ target (m <<< n / m') t := by
    refine digits.elim (fun least => least.trans (le_max_right ..)) fun full => ?_
    have : 23 ≤ (m <<< n / m').log2 := (Nat.le_log2 (by omega)).mpr full
    unfold target
    omega
  have some : 0 < m <<< n / m' ∨ target (m <<< n / m') t = -149 := by
    refine (Nat.eq_zero_or_pos _).symm.imp_right fun none => ?_
    have least := digits.resolve_right (by omega)
    have digit : Nat.log2 0 = 0 := rfl
    rw [none]
    unfold target
    omega
  have quotient := roundWithAccuracy_nearest (fraction_describes (m <<< n) pos') some low (s / s')
  have value : ((s / s').apply 1 : ℤ) * (((m <<< n : Nat) : ℚ) / m' * 2 ^ t) =
      amountOf (.finite s m e pos) / amountOf (.finite s' m' e' pos') := by
    have scale : (m : ℚ) * 2 ^ (e - e') = (m <<< n : Nat) * 2 ^ t := by
      rw [apart, two_zpow_add_nat, Nat.shiftLeft_eq]
      push_cast
      ring
    have sign : (s / s').apply 1 * s'.apply 1 = s.apply 1 := by cases s <;> cases s' <;> rfl
    have some' : ((s'.apply 1 : ℤ) : ℚ) ≠ 0 := by cases s' <;> norm_num [Sign.apply]
    have unit' := two_zpow_pos e'
    have pos' : (0 : ℚ) < m' := Nat.cast_pos.mpr pos'
    rw [div_mul_eq_mul_div, ← scale, zpow_sub₀ two_ne_zero, amountOf_finite, amountOf_finite, ← sign,
      Int.cast_mul]
    field_simp
  rw [value, ← shift] at quotient
  exact quotient

section
variable {x y c : Single} (finite : Finite c.view) (positive : 0 < c.amount)
include finite positive

theorem divisor_form : ∃ m e pos, c.view = .finite .positive m e pos := by
  have reached := (le_abs_self _).trans_lt (finite_iff.mp finite).2
  obtain ⟨m, e, pos, form, _⟩ := finite_form positive reached
  exact ⟨m, e, pos, form⟩

theorem div_nearest (hx : Finite x.view) : NearestTo (x.amount / c.amount) (x / c).view := by
  obtain ⟨m, e, pos, form⟩ := divisor_form finite positive
  rw [view_div, amount, amount, form]
  cases hv : x.view with
  | infinity | notANumber => rw [hv] at hx; exact hx.elim
  | zero s =>
    have none : UnpackedFloat.div .binary32 (.zero s) (.finite .positive m e pos) =
        .zero (s / .positive) := rfl
    rw [none, show amountOf (.zero s) = 0 from rfl, zero_div]
    exact .zero _
  | finite s m' e' pos' => exact div_nearestTo

theorem infinity_div {s : Sign} (hx : x.view = .infinity s) : (x / c).view = .infinity s := by
  obtain ⟨m, e, pos, form⟩ := divisor_form finite positive
  have stays : UnpackedFloat.div .binary32 (.infinity s) (.finite .positive m e pos) =
      .infinity s := by cases s <;> rfl
  rw [view_div, hx, form, stays, unpack_pack (u := .infinity s) trivial]

protected theorem div_le_div_right (h : x ≤ y) : x / c ≤ y / c :=
  mono_of_nearest (f := (· / c)) (g := (· / c.amount))
    (fun _ _ less => div_lt_div_of_pos_right less positive)
    (fun same => by rw [view_div, view_div, same]) (fun hz => div_nearest finite positive hz)
    ⟨.zero .positive, .zero _, (zero_div _).symm⟩ (fun hz => infinity_div finite positive hz) h

end

theorem value_eq (x : Single) : x.value = match x.view with
    | .notANumber => .notANumber
    | .infinity s => .infinite (s == .negative)
    | .zero s => .finite (s == .negative) 0 (-149)
    | .finite s m e _ => .finite (s == .negative) m e := by
  obtain ⟨s, e, m, bits⟩ := exists_packComponents x.bits.toBitVec
  have short : m.toNat < 0x800000 := m.isLt
  have bound : e.toNat < 256 := e.isLt
  have number := toNat_packComponents s e m
  rw [bits] at number
  have number : x.bits.toNat = s.toBitVec.toNat * 0x80000000 + e.toNat * 0x800000 + m.toNat := number
  have sign : x.negative = (s == .negative) := by
    have half : (0x80000000 : UInt32).toNat = 0x80000000 := rfl
    unfold negative
    cases s with
    | positive =>
      have none : Sign.positive.toBitVec.toNat = 0 := rfl
      exact decide_eq_false (by rw [UInt32.le_iff_toNat_le]; omega)
    | negative =>
      have one : Sign.negative.toBitVec.toNat = 1 := rfl
      exact decide_eq_true (by rw [UInt32.le_iff_toNat_le]; omega)
  have field : x.bits.toNat / 0x800000 % 256 = e.toNat := by omega
  have fraction : x.bits.toNat % 0x800000 = m.toNat := by omega
  have last : e = -1#8 ↔ e.toNat = 255 := BitVec.toNat_inj.symm
  have first : e = 0#8 ↔ e.toNat = 0 := BitVec.toNat_inj.symm
  have empty : m = 0#23 ↔ m.toNat = 0 := BitVec.toNat_inj.symm
  unfold value view leadingBit
  rw [← bits, unpack_packComponents]
  simp only [field, fraction, sign]
  by_cases he : e = -1#8
  · rw [if_pos (last.mp he), if_pos he]
    by_cases hm : m = 0#23
    · rw [if_pos (empty.mp hm), if_pos hm]
    · rw [if_neg (mt empty.mpr hm), if_neg hm]
  rw [if_neg (mt last.mpr he), if_neg he]
  by_cases h0 : e = 0#8
  · rw [if_pos (first.mp h0), if_pos h0]
    by_cases hm : m = 0#23
    · rw [dif_pos hm, empty.mp hm]
    · rw [dif_neg hm]
  · rw [if_neg (mt first.mpr h0), if_neg h0, Nat.add_comm]

theorem floorScaled_eq (s : Sign) (m : Nat) (e : Int) (pos : 0 < m) :
    floorScaled (s == .negative) m e = ⌊amountOf (.finite s m e pos)⌋ := by
  have signed : (if s == .negative then -(m : Int) else m) = s.apply m := by cases s <;> rfl
  unfold floorScaled amountOf
  rw [signed]
  dsimp only
  split
  · next whole =>
    obtain ⟨n, rfl⟩ := Int.eq_ofNat_of_zero_le whole
    have value : ((s.apply m : ℤ) : ℚ) * 2 ^ (n : ℤ) = ((s.apply m * 2 ^ n : ℤ) : ℚ) := by
      rw [zpow_natCast]
      push_cast
      ring
    rw [value, Int.floor_intCast, Int.toNat_natCast, Nat.pow_eq]
    push_cast
    rfl
  · next part =>
    obtain ⟨n, rfl⟩ : ∃ n : Nat, e = -n := ⟨(-e).toNat, by omega⟩
    have quotient := Rat.floor_intCast_div_natCast (s.apply m) (2 ^ n)
    rw [Nat.cast_pow, Nat.cast_pow] at quotient
    rw [zpow_neg, zpow_natCast, ← div_eq_mul_inv, neg_neg, Int.toNat_natCast, Nat.pow_eq]
    push_cast at quotient ⊢
    exact quotient.symm

theorem clamp_eq {low high : Int} (h : low ≤ high) (n : Int) :
    clamp low high n = Max.max low (Min.min high n) := by
  unfold clamp
  split_ifs <;> omega

/-- The greatest integer not above a number, held within limits that infinity is beyond. -/
theorem floorWithin_eq {low high : Int} {x : Single} (hx : x.isNaN = false) (h : low ≤ high)
    (least : -2 ^ 128 ≤ low) (greatest : high ≤ 2 ^ 128) :
    x.floorWithin low high = Max.max low (Min.min high ⌊x.amount⌋) := by
  unfold floorWithin
  rw [value_eq]
  cases hv : x.view with
  | notANumber => exact absurd hv (view_ne_notANumber.mpr hx)
  | infinity s =>
    have value : x.amount = ((s.apply 1 * 2 ^ 128 : ℤ) : ℚ) := by
      rw [amount_of_infinity hv]
      push_cast
      rfl
    rw [value, Int.floor_intCast]
    cases s with
    | positive =>
      have beyond : high ≤ Sign.positive.apply 1 * 2 ^ 128 := greatest
      rw [min_eq_left beyond, max_eq_right h]
      rfl
    | negative =>
      have beyond : Sign.negative.apply 1 * 2 ^ 128 ≤ low := least
      rw [max_eq_left ((min_le_right _ _).trans beyond)]
      rfl
  | zero s =>
    have value : x.amount = 0 := by
      rw [amount, hv]
      rfl
    have none : floorScaled (s == .negative) 0 (-149) = 0 := by cases s <;> decide
    rw [value, Int.floor_zero]
    dsimp only
    rw [clamp_eq h, none]
  | finite s m e pos =>
    dsimp only
    rw [clamp_eq h, floorScaled_eq s m e pos, amount, hv]

theorem floor32_eq {x : Single} (hx : x.isNaN = false) :
    x.floor32 = Max.max (-2147483648) (Min.min 2147483647 ⌊x.amount⌋) :=
  floorWithin_eq hx (by decide) (by decide) (by decide)

theorem floor32_mono {x y : Single} (h : x ≤ y) : x.floor32 ≤ y.floor32 := by
  obtain ⟨hx, hy, le⟩ := le_iff.mp h
  rw [floor32_eq hx, floor32_eq hy]
  have := Int.floor_mono le
  omega

theorem le_floor32_iff {x : Single} (hx : x.isNaN = false) {k : Int} (low : -2147483648 < k)
    (high : k ≤ 2147483647) : k ≤ x.floor32 ↔ k ≤ x.amount := by
  rw [floor32_eq hx, ← Int.le_floor]
  omega

theorem le_ceilNat {x : Single} (hx : x.isNaN = false) {limit : Nat} (most : limit ≤ 2 ^ 128)
    (reached : x.ceilNat limit < limit) : x.amount ≤ x.ceilNat limit := by
  have least : -2 ^ 128 ≤ -(limit : Int) := by
    have : (limit : Int) ≤ (2 ^ 128 : Nat) := Int.ofNat_le.mpr most
    push_cast at this
    omega
  have floor := floorWithin_eq ((neg_isNaN x).trans hx) (by omega) least (by decide : (0 : Int) ≤ _)
  rw [amount_neg] at floor
  have whole : -(x.ceilNat limit : Int) ≤ ⌊-x.amount⌋ := by
    unfold ceilNat at reached ⊢
    omega
  have := Int.le_floor.mp whole
  push_cast at this
  linarith

end SharedWorld.Single
