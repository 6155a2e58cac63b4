import SharedWorld.Proofs.Single.Nearest

/-! Numbers that are computed in order. An operation that is exact at zero and leaves infinity alone
keeps what it is applied to in order, so what is added to the same number stays in order; a sum of what
is not negative is no less than either part. -/
namespace SharedWorld.Single
open Float.Model Float.Model.UnpackedFloat

theorem nearer_greater {q a b : ℚ} (h : b < a) : |q - a| ≤ |q - b| ↔ a + b ≤ 2 * q := by
  rw [← sq_le_sq]
  constructor <;> intro <;> nlinarith

theorem nearer_less {q a b : ℚ} (h : b < a) : |q - b| ≤ |q - a| ↔ 2 * q ≤ a + b := by
  rw [← sq_le_sq]
  constructor <;> intro <;> nlinarith

section
variable {q r : ℚ} {u v : UnpackedFloat}

theorem NearestTo.mono (hu : NearestTo q u) (hv : NearestTo r v) (lt : q < r) :
    amountOf u ≤ amountOf v := by
  by_contra more
  have more := not_le.mp more
  have first := (nearer_greater more).mp (hu.near v hv.number)
  have second := (nearer_less more).mp (hv.near u hu.number)
  linarith

theorem NearestTo.le (hu : NearestTo q u) (hv : Number v) (le : q ≤ amountOf v) :
    amountOf u ≤ amountOf v := by
  by_contra more
  have more := not_le.mp more
  have := (nearer_greater more).mp (hu.near v hv)
  linarith

theorem NearestTo.ge (hu : NearestTo q u) (hv : Number v) (le : amountOf v ≤ q) :
    amountOf v ≤ amountOf u := by
  by_contra less
  have less := not_le.mp less
  have := (nearer_less less).mp (hu.near v hv)
  linarith

theorem NearestTo.nonneg (hu : NearestTo q u) (h : 0 ≤ q) : 0 ≤ amountOf u :=
  hu.ge (.zero .positive) h

theorem NearestTo.eq (hu : NearestTo (amountOf v) u) (hv : Number v) : amountOf u = amountOf v :=
  le_antisymm (hu.le hv le_rfl) (hu.ge hv le_rfl)

theorem NearestTo.infinity (beyond : 2 ^ (128 : ℤ) ≤ q) : NearestTo q (.infinity .positive) := by
  refine ⟨.infinity _, fun v hv => ?_⟩
  have within := (abs_le.mp (abs_amountOf_le hv.canonical)).2
  rw [amountOf_infinity.1, abs_of_nonneg (sub_nonneg.mpr beyond)]
  exact (sub_le_sub_left within q).trans (le_abs_self _)

end

section
variable (x y : Single)

theorem bits_add : (x + y).bits.toBitVec =
    pack .binary32 (UnpackedFloat.add .binary32 x.view y.view) := by
  unfold view
  rw [← unpack_pack_unpack x.bits.toBitVec, ← unpack_pack_unpack y.bits.toBitVec]
  rfl

theorem bits_sub : (x - y).bits.toBitVec =
    pack .binary32 (UnpackedFloat.sub .binary32 x.view y.view) := by
  unfold view
  rw [← unpack_pack_unpack x.bits.toBitVec, ← unpack_pack_unpack y.bits.toBitVec]
  rfl

theorem view_add : (x + y).view =
    UnpackedFloat.unpack .binary32 (pack .binary32 (UnpackedFloat.add .binary32 x.view y.view)) :=
  congrArg (UnpackedFloat.unpack .binary32) (bits_add x y)

theorem view_mul : (x * y).view =
    UnpackedFloat.unpack .binary32 (pack .binary32 (UnpackedFloat.mul .binary32 x.view y.view)) := by
  unfold view
  rw [← unpack_pack_unpack x.bits.toBitVec, ← unpack_pack_unpack y.bits.toBitVec]
  rfl

theorem view_div : (x / y).view =
    UnpackedFloat.unpack .binary32 (pack .binary32 (UnpackedFloat.div .binary32 x.view y.view)) := by
  unfold view
  rw [← unpack_pack_unpack x.bits.toBitVec, ← unpack_pack_unpack y.bits.toBitVec]
  rfl

theorem view_neg : (-x).view = x.view.neg := by
  obtain ⟨s, e, m, bits⟩ := exists_packComponents x.bits.toBitVec
  have turned : (-x).bits.toBitVec = packComponents .binary32 (-s) e m := by
    have sign : s.toBitVec ^^^ 1#1 = (-s).toBitVec := by cases s <;> rfl
    have bit : (-x).bits.toBitVec = x.bits.toBitVec ^^^ (1#1 ++ 0#8 ++ 0#23) := rfl
    rw [bit, ← bits]
    unfold packComponents
    rw [BitVec.xor_append, BitVec.xor_append, sign, BitVec.xor_zero, BitVec.xor_zero]
  unfold view
  rw [turned, ← bits, unpack_packComponents, unpack_packComponents]
  split
  · split <;> rfl
  split
  · split <;> rfl
  · rfl

end

theorem unpacked_sub (u v : UnpackedFloat) :
    UnpackedFloat.sub .binary32 u v = UnpackedFloat.add .binary32 u v.neg := by
  cases u with
  | notANumber => rfl
  | infinity | zero => cases v <;> rfl
  | finite s m e pos =>
    cases v with
    | notANumber | infinity | zero => rfl
    | finite s' m' e' pos' =>
      have turned (k : Int) : -s'.apply k = (-s').apply k := by
        cases s' with
        | positive => rfl
        | negative => exact neg_neg k
      unfold UnpackedFloat.sub UnpackedFloat.add UnpackedFloat.neg
      dsimp only
      rw [sub_eq_add_neg, turned]

protected theorem sub_eq_add_neg (x y : Single) : x - y = x + -y := by
  have same : (x - y).bits.toBitVec = (x + -y).bits.toBitVec := by
    rw [bits_sub, bits_add, view_neg, unpacked_sub]
  exact congrArg mk (UInt32.toBitVec_inj.mp same)

theorem amountOf_neg (u : UnpackedFloat) : amountOf u.neg = -amountOf u := by
  cases u with
  | notANumber | zero => exact neg_zero.symm
  | infinity s | finite s => cases s <;> simp [amountOf, UnpackedFloat.neg, Sign.apply]

theorem Number.neg {u : UnpackedFloat} (h : Number u) : Number u.neg := by
  obtain ⟨canonical, number⟩ := h
  cases u with
  | notANumber => exact absurd rfl number
  | infinity s => exact .infinity (-s)
  | zero s => exact .zero (-s)
  | finite s m e pos => exact .finite canonical

variable {x y c o : Single}

theorem amount_neg (x : Single) : (-x).amount = -x.amount := by
  rw [amount, view_neg, amountOf_neg]
  rfl

theorem neg_isNaN (x : Single) : (-x).isNaN = x.isNaN := by
  rw [Bool.eq_iff_iff, ← view_eq_notANumber, ← view_eq_notANumber, view_neg]
  cases x.view <;> simp [UnpackedFloat.neg]

theorem neg_finite (h : Finite x.view) : Finite (-x).view := by
  rw [view_neg]
  cases hv : x.view with
  | notANumber | infinity => rw [hv] at h; exact h.elim
  | zero | finite => trivial

protected theorem neg_le_neg (h : x ≤ y) : -y ≤ -x := by
  obtain ⟨nx, ny, le⟩ := le_iff.mp h
  rw [le_iff, neg_isNaN, neg_isNaN, amount_neg, amount_neg]
  exact ⟨ny, nx, neg_le_neg le⟩

theorem add_nearest (hx : Finite x.view) (hy : Finite y.view) :
    NearestTo (x.amount + y.amount) (x + y).view := by
  rw [view_add]
  exact add_nearestTo x.view_canonical y.view_canonical hx hy

theorem sub_nearest (hx : Finite x.view) (hy : Finite y.view) :
    NearestTo (x.amount - y.amount) (x - y).view := by
  rw [Single.sub_eq_add_neg, sub_eq_add_neg, ← amount_neg]
  exact add_nearest hx (neg_finite hy)

theorem mul_nearest (hx : Finite x.view) (hy : Finite y.view) :
    NearestTo (x.amount * y.amount) (x * y).view := by
  rw [view_mul]
  exact mul_nearestTo x.view_canonical y.view_canonical hx hy

theorem numbers_of_operation {op : UnpackedFloat → UnpackedFloat → UnpackedFloat} {z : Single}
    (result : z.view = UnpackedFloat.unpack .binary32 (pack .binary32 (op x.view y.view)))
    (left : ∀ v, op .notANumber v = .notANumber) (right : ∀ u, op u .notANumber = .notANumber)
    (number : z.isNaN = false) : x.isNaN = false ∧ y.isNaN = false := by
  rw [← view_ne_notANumber] at number ⊢
  rw [← view_ne_notANumber]
  constructor
  · intro none
    rw [result, none, left] at number
    exact number rfl
  · intro none
    rw [result, none, right] at number
    exact number rfl

theorem numbers_of_add (number : (x + y).isNaN = false) : x.isNaN = false ∧ y.isNaN = false :=
  numbers_of_operation (view_add x y) (fun _ => rfl) (fun u => by cases u <;> rfl) number

theorem numbers_of_sub (number : (x - y).isNaN = false) : x.isNaN = false ∧ y.isNaN = false := by
  rw [Single.sub_eq_add_neg] at number
  exact neg_isNaN y ▸ numbers_of_add number

theorem numbers_of_mul (number : (x * y).isNaN = false) : x.isNaN = false ∧ y.isNaN = false :=
  numbers_of_operation (view_mul x y) (fun _ => rfl) (fun u => by cases u <;> rfl) number

theorem numbers_of_div (number : (x / y).isNaN = false) : x.isNaN = false ∧ y.isNaN = false :=
  numbers_of_operation (view_div x y) (fun _ => rfl) (fun u => by cases u <;> rfl) number

theorem NearestTo.isNaN {q : ℚ} (h : NearestTo q x.view) : x.isNaN = false :=
  view_ne_notANumber.mp h.number.isNumber

theorem isNaN_of_infinity {s : Sign} (h : x.view = .infinity s) : x.isNaN = false :=
  view_ne_notANumber.mp (h ▸ (Number.infinity s).isNumber)

theorem amount_of_infinity {s : Sign} (h : x.view = .infinity s) :
    x.amount = (s.apply 1 : ℤ) * 2 ^ (128 : ℤ) := by
  rw [amount, h]
  rfl

theorem finite_or_infinity (number : x.isNaN = false) :
    Finite x.view ∨ ∃ s, x.view = .infinity s := by
  have number := view_ne_notANumber.mpr number
  cases h : x.view with
  | notANumber => exact absurd h number
  | infinity s => exact .inr ⟨s, rfl⟩
  | zero | finite => exact .inl trivial

theorem finite_iff : Finite x.view ↔ x.isNaN = false ∧ |x.amount| < 2 ^ (128 : ℤ) := by
  constructor
  · intro finite
    have number : x.view ≠ .notANumber := fun none => by rw [none] at finite; exact finite
    exact ⟨view_ne_notANumber.mp number, abs_amountOf_lt x.view_canonical finite⟩
  · rintro ⟨number, less⟩
    refine (finite_or_infinity number).resolve_right ?_
    rintro ⟨s, infinite⟩
    rw [amount, infinite, abs_amountOf_infinity] at less
    exact lt_irrefl _ less

theorem positive_form {u : UnpackedFloat} (hu : Canonical u) (h : 0 < amountOf u) :
    u = .infinity .positive ∨
      ∃ m e pos, u = .finite .positive m e pos ∧ Fits m e ∧ amountOf u = m * 2 ^ e := by
  cases u with
  | notANumber | zero => exact absurd h (lt_irrefl _)
  | infinity s =>
    cases s with
    | positive => exact .inl rfl
    | negative =>
      rw [amountOf_infinity.2] at h
      linarith [two_zpow_pos 128]
  | finite s m e pos =>
    cases s with
    | positive => exact .inr ⟨m, e, pos, rfl, hu, by simp [amountOf_finite, Sign.apply]⟩
    | negative =>
      have some : 0 < amountOf (.finite .positive m e pos) := amount_finite_pos
      rw [amountOf_negative] at h
      linarith

theorem finite_form (h : 0 < x.amount) (less : x.amount < 2 ^ (128 : ℤ)) :
    ∃ m e pos, x.view = .finite .positive m e pos ∧ Fits m e ∧ x.amount = m * 2 ^ e := by
  refine (positive_form x.view_canonical h).resolve_left fun infinite => ?_
  rw [amount, infinite, amountOf_infinity.1] at less
  exact lt_irrefl _ less

theorem finite_of_isFinite (h : x.isFinite) : Finite x.view := by
  obtain ⟨s, e, m, bits⟩ := exists_packComponents x.bits.toBitVec
  have short : m.toNat < 0x800000 := m.isLt
  have value := toNat_packComponents s e m
  rw [bits] at value
  have value : x.bits.toNat = s.toBitVec.toNat * 0x80000000 + e.toNat * 0x800000 + m.toNat := value
  have masked : x.bits.toNat &&& 0x7fffffff = x.bits.toNat % 0x80000000 :=
    Nat.and_two_pow_sub_one_eq_mod x.bits.toNat 31
  have small : x.bits.toNat % 0x80000000 < 0x7f800000 := by
    rw [← masked]
    exact of_decide_eq_true h
  have exponent : e ≠ -1#8 := fun last => by
    have : e.toNat = 255 := congrArg BitVec.toNat last
    omega
  unfold view
  rw [← bits, unpack_packComponents, if_neg exponent]
  split
  · split <;> trivial
  · trivial

theorem abs_isNaN (x : Single) : x.abs.isNaN = x.isNaN := by
  unfold isNaN abs
  rw [UInt32.and_assoc, UInt32.and_self]

theorem abs_amount (x : Single) : x.abs.amount = |x.amount| := by
  obtain ⟨s, e, m, bits⟩ := exists_packComponents x.bits.toBitVec
  have cleared : x.abs.bits.toBitVec = packComponents .binary32 .positive e m := by
    have bit : x.abs.bits.toBitVec = x.bits.toBitVec &&& (0#1 ++ BitVec.allOnes 8 ++ BitVec.allOnes 23) :=
      rfl
    rw [bit, ← bits]
    unfold packComponents
    rw [BitVec.and_append, BitVec.and_append, BitVec.and_zero, BitVec.and_allOnes, BitVec.and_allOnes]
    rfl
  unfold amount view
  rw [cleared, ← bits, unpack_packComponents, unpack_packComponents]
  split
  · split
    · rw [abs_amountOf_infinity, amountOf_infinity.1]
    · exact abs_zero.symm
  split
  · split
    · exact abs_zero.symm
    · exact (abs_amountOf_finite ..).symm
  · exact (abs_amountOf_finite ..).symm

theorem bottom_le (hx : x.view = .infinity .negative) (hy : y.isNaN = false) : x ≤ y := by
  refine le_iff.mpr ⟨isNaN_of_infinity hx, hy, ?_⟩
  rw [amount, hx, amountOf_infinity.2]
  exact (abs_le.mp (abs_amountOf_le y.view_canonical)).1

theorem le_top (hx : x.isNaN = false) (hy : y.view = .infinity .positive) : x ≤ y := by
  refine le_iff.mpr ⟨hx, isNaN_of_infinity hy, ?_⟩
  rw [amount.eq_def y, hy, amountOf_infinity.1]
  exact (abs_le.mp (abs_amountOf_le x.view_canonical)).2

theorem bottom_lt_amount (hx : x.isNaN = false) (h : x.view ≠ .infinity .negative) :
    -2 ^ (128 : ℤ) < x.amount := by
  rcases finite_or_infinity hx with finite | ⟨s, infinite⟩
  · exact (abs_lt.mp (finite_iff.mp finite).2).1
  · cases s with
    | positive => rw [amount, infinite, amountOf_infinity.1]; linarith [two_zpow_pos 128]
    | negative => exact absurd infinite h

theorem amount_lt_top (hx : x.isNaN = false) (h : x.view ≠ .infinity .positive) :
    x.amount < 2 ^ (128 : ℤ) := by
  rcases finite_or_infinity hx with finite | ⟨s, infinite⟩
  · exact (abs_lt.mp (finite_iff.mp finite).2).2
  · cases s with
    | positive => exact absurd infinite h
    | negative => rw [amount, infinite, amountOf_infinity.2]; linarith [two_zpow_pos 128]

theorem level_of_amount (hx : x.isNaN = false) (hy : y.isNaN = false) (h : x.amount = y.amount) :
    x.view = y.view ∨ x.amount = 0 := by
  have level : x.view.compare y.view = some .eq := by
    rw [compare_view hx hy, (cmp_eq_eq_iff _ _).mpr h]
  obtain ⟨_, _, same | ⟨s, s', zero, _⟩⟩ := eq_of_compare level
  · exact .inl same
  · refine .inr ?_
    rw [amount, zero]
    rfl

/-- What is computed to the nearest number, comes out exactly for zero and leaves infinity as it is
keeps numbers in order. -/
theorem mono_of_nearest {f : Single → Single} {g : ℚ → ℚ} (mono : StrictMono g)
    (computed : ∀ {z z'}, z.view = z'.view → (f z).view = (f z').view)
    (near : ∀ {z}, Finite z.view → NearestTo (g z.amount) (f z).view)
    (whole : ∃ v, Number v ∧ amountOf v = g 0)
    (stays : ∀ {z s}, z.view = .infinity s → (f z).view = .infinity s) (h : x ≤ y) : f x ≤ f y := by
  obtain ⟨nx, ny, le⟩ := le_iff.mp h
  have number {z : Single} (hz : z.isNaN = false) : (f z).isNaN = false := by
    rcases finite_or_infinity hz with hz | ⟨s, hz⟩
    · exact (near hz).isNaN
    · exact isNaN_of_infinity (stays hz)
  by_cases low : x.view = .infinity .negative
  · exact bottom_le (stays low) (number ny)
  by_cases high : y.view = .infinity .positive
  · exact le_top (number nx) (stays high)
  have bottom := bottom_lt_amount nx low
  have top := amount_lt_top ny high
  have near_left := near (finite_iff.mpr ⟨nx, abs_lt.mpr ⟨bottom, le.trans_lt top⟩⟩)
  have near_right := near (finite_iff.mpr ⟨ny, abs_lt.mpr ⟨bottom.trans_le le, top⟩⟩)
  refine le_iff.mpr ⟨number nx, number ny, ?_⟩
  rcases le.lt_or_eq with less | level
  · exact near_left.mono near_right (mono less)
  rcases level_of_amount nx ny level with same | zero
  · rw [amount, amount, computed same]
  · obtain ⟨v, hv, value⟩ := whole
    rw [zero, ← value] at near_left
    rw [← level, zero, ← value] at near_right
    exact ((near_left.eq hv).trans (near_right.eq hv).symm).le

theorem infinity_add {s : Sign} (hx : x.view = .infinity s) (hy : Finite y.view) :
    (x + y).view = .infinity s := by
  have stays : UnpackedFloat.add .binary32 (.infinity s) y.view = .infinity s := by
    cases hv : y.view with
    | infinity | notANumber => rw [hv] at hy; exact hy.elim
    | zero | finite => rfl
  rw [view_add, hx, stays, unpack_pack (u := .infinity s) trivial]

theorem add_infinity {s : Sign} (hx : Finite x.view) (hy : y.view = .infinity s) :
    (x + y).view = .infinity s := by
  have stays : UnpackedFloat.add .binary32 x.view (.infinity s) = .infinity s := by
    cases hv : x.view with
    | infinity | notANumber => rw [hv] at hx; exact hx.elim
    | zero | finite => rfl
  rw [view_add, hy, stays, unpack_pack (u := .infinity s) trivial]

theorem finite_of_add (h : Finite (x + y).view) : Finite x.view ∧ Finite y.view := by
  obtain ⟨nx, ny⟩ := numbers_of_add (finite_iff.mp h).1
  rcases finite_or_infinity nx with hx | ⟨s, ix⟩
  · refine ⟨hx, (finite_or_infinity ny).resolve_right fun ⟨s, iy⟩ => ?_⟩
    rw [add_infinity hx iy] at h
    exact h
  · rcases finite_or_infinity ny with hy | ⟨s', iy⟩
    · rw [infinity_add ix hy] at h
      exact h.elim
    · rw [view_add, ix, iy] at h
      cases s <;> cases s' <;> exact h.elim

theorem finite_of_sub (h : Finite (x - y).view) : Finite x.view ∧ Finite y.view := by
  rw [Single.sub_eq_add_neg] at h
  obtain ⟨hx, hy⟩ := finite_of_add h
  refine ⟨hx, ?_⟩
  rw [finite_iff, neg_isNaN, amount_neg, abs_neg, ← finite_iff] at hy
  exact hy

theorem le_of_view {u : UnpackedFloat} (hx : x.view = u) (hy : y.view = u) (number : Number u) :
    x ≤ y := by
  have numbers := number.isNumber
  refine le_iff.mpr ⟨view_ne_notANumber.mp (hx ▸ numbers), view_ne_notANumber.mp (hy ▸ numbers), ?_⟩
  rw [amount, amount, hx, hy]

protected theorem add_le_add_right (hc : Finite c.view) (h : x ≤ y) : x + c ≤ y + c :=
  mono_of_nearest (f := (· + c)) (g := (· + c.amount)) (fun _ _ less => add_lt_add_left less _)
    (fun same => by rw [view_add, view_add, same]) (fun hz => add_nearest hz hc)
    ⟨c.view, number_view (finite_iff.mp hc).1, (zero_add _).symm⟩ (fun hz => infinity_add hz hc) h

protected theorem sub_le_sub_right (hc : Finite c.view) (h : x ≤ y) : x - c ≤ y - c := by
  rw [Single.sub_eq_add_neg, Single.sub_eq_add_neg]
  exact Single.add_le_add_right (neg_finite hc) h

section
variable (hx : x.isNaN = false) (hc : Finite c.view) (nonneg : 0 ≤ c.amount)
include hx hc nonneg

protected theorem le_add_right : x ≤ x + c := by
  rcases finite_or_infinity hx with finite | ⟨s, infinite⟩
  · have sum := add_nearest finite hc
    exact le_iff.mpr ⟨hx, sum.isNaN, sum.ge (number_view hx) (le_add_of_nonneg_right nonneg)⟩
  · exact le_of_view infinite (infinity_add infinite hc) (.infinity s)

protected theorem sub_le_self : x - c ≤ x := by
  rw [Single.sub_eq_add_neg]
  have nonpos : x.amount + (-c).amount ≤ x.amount := by
    rw [amount_neg]
    linarith
  rcases finite_or_infinity hx with finite | ⟨s, infinite⟩
  · have sum := add_nearest finite (neg_finite hc)
    exact le_iff.mpr ⟨sum.isNaN, hx, sum.le (number_view hx) nonpos⟩
  · exact le_of_view (infinity_add infinite (neg_finite hc)) infinite (.infinity s)

end

section
variable (ho : o.isNaN = false) (hx : Finite x.view) (hy : Finite y.view) (h : x ≤ y)
include ho hx hy h

protected theorem add_le_add_left : o + x ≤ o + y := by
  rcases finite_or_infinity ho with finite | ⟨s, infinite⟩
  · exact mono_of_nearest (f := (o + ·)) (g := (o.amount + ·)) (fun _ _ less => add_lt_add_right less _)
      (fun same => by rw [view_add, view_add, same]) (fun hz => add_nearest finite hz)
      ⟨o.view, number_view ho, (add_zero _).symm⟩ (fun hz => add_infinity finite hz) h
  · exact le_of_view (infinity_add infinite hx) (infinity_add infinite hy) (.infinity s)

protected theorem sub_le_sub_left : o - y ≤ o - x := by
  rw [Single.sub_eq_add_neg, Single.sub_eq_add_neg]
  exact Single.add_le_add_left ho (neg_finite hy) (neg_finite hx) (Single.neg_le_neg h)

end

theorem finite_or_top (number : x.isNaN = false) (nonneg : 0 ≤ x.amount) :
    Finite x.view ∨ x.view = .infinity .positive ∧ x.amount = 2 ^ (128 : ℤ) := by
  refine (finite_or_infinity number).imp_right ?_
  rintro ⟨s, infinite⟩
  cases s with
  | positive =>
    refine ⟨infinite, ?_⟩
    rw [amount, infinite, amountOf_infinity.1]
  | negative =>
    rw [amount, infinite, amountOf_infinity.2] at nonneg
    linarith [two_zpow_pos 128]

theorem sum_nearest (hx : 0 ≤ x.amount) (hy : 0 ≤ y.amount) (nx : x.isNaN = false)
    (ny : y.isNaN = false) : NearestTo (x.amount + y.amount) (x + y).view := by
  rcases finite_or_top nx hx with fx | ⟨ix, top⟩
  · rcases finite_or_top ny hy with fy | ⟨iy, top⟩
    · exact add_nearest fx fy
    · rw [add_infinity fx iy]
      exact .infinity (by linarith)
  · have sum : (x + y).view = .infinity .positive := by
      rcases finite_or_top ny hy with fy | ⟨iy, _⟩
      · exact infinity_add ix fy
      · rw [view_add, ix, iy]
        rfl
    rw [sum]
    exact .infinity (by linarith)

/-- A sum of what is not negative is no less than either part. -/
theorem parts_le (hx : 0 ≤ x.amount) (hy : 0 ≤ y.amount) (number : (x + y).isNaN = false) :
    x ≤ x + y ∧ y ≤ x + y := by
  obtain ⟨nx, ny⟩ := numbers_of_add number
  have sum := sum_nearest hx hy nx ny
  constructor
  · exact le_iff.mpr ⟨nx, number, sum.ge (number_view nx) (le_add_of_nonneg_right hy)⟩
  · exact le_iff.mpr ⟨ny, number, sum.ge (number_view ny) (le_add_of_nonneg_left hx)⟩

end SharedWorld.Single
