import Mathlib
import SharedWorld.Proofs.Single.Level

/-! What a number amounts to. Infinity counts as the first power of two that is out of reach, so that
numbers are in the order of their amounts. -/
namespace SharedWorld.Single
open Float.Model Float.Model.UnpackedFloat

def view (x : Single) : UnpackedFloat := UnpackedFloat.unpack .binary32 x.bits.toBitVec

def amountOf : UnpackedFloat → ℚ
  | .infinity s => (s.apply 1 : ℤ) * (2 : ℚ) ^ (128 : ℤ)
  | .finite s m e _ => (s.apply m : ℤ) * (2 : ℚ) ^ e
  | .zero _ | .notANumber => 0

def amount (x : Single) : ℚ := amountOf x.view

/-- The mantissa has all its digits, or the exponent is the least. -/
structure Shaped (m : Nat) (e : Int) : Prop where
  short : m < 0x1000000
  least : -149 ≤ e
  full : 0x800000 ≤ m ∨ e = -149

structure Fits (m : Nat) (e : Int) : Prop extends Shaped m e where
  greatest : e ≤ 104

def Finite : UnpackedFloat → Prop
  | .infinity _ | .notANumber => False
  | .zero _ | .finite .. => True

/-- What bits can stand for. -/
def Canonical : UnpackedFloat → Prop
  | .finite _ m e _ => Fits m e
  | _ => True

/-- What the bits of a number can stand for. -/
structure Number (u : UnpackedFloat) : Prop where
  canonical : Canonical u
  isNumber : u ≠ .notANumber

namespace Number

theorem zero (s : Sign) : Number (.zero s) := ⟨trivial, nofun⟩

theorem infinity (s : Sign) : Number (.infinity s) := ⟨trivial, nofun⟩

theorem finite {s : Sign} {m : Nat} {e : Int} {pos : 0 < m} (h : Fits m e) :
    Number (.finite s m e pos) := ⟨h, nofun⟩

end Number

theorem unpack_canonical (b : BitVec 32) : Canonical (UnpackedFloat.unpack .binary32 b) := by
  obtain ⟨s, e, m, rfl⟩ := exists_packComponents b
  have short : m.toNat < 0x800000 := m.isLt
  have bound : e.toNat < 256 := e.isLt
  rw [unpack_packComponents]
  split
  · split <;> trivial
  split
  · split
    · trivial
    · exact ⟨⟨by omega, le_refl _, .inr rfl⟩, by decide⟩
  · next h255 h0 =>
    have last : e.toNat ≠ 255 := fun h => h255 (BitVec.eq_of_toNat_eq h)
    have first : e.toNat ≠ 0 := fun h => h0 (BitVec.eq_of_toNat_eq h)
    exact ⟨⟨by omega, by omega, .inl (by omega)⟩, by omega⟩

theorem view_canonical (x : Single) : Canonical x.view := unpack_canonical _

theorem unpack_pack_normal (s : Sign) {m : Nat} {e : Int} {pos : 0 < m} (h : Fits m e)
    (normal : 0x800000 ≤ m) :
    UnpackedFloat.unpack .binary32 (pack .binary32 (.finite s m e pos)) = .finite s m e pos := by
  obtain ⟨⟨short, least, _⟩, greatest⟩ := h
  obtain ⟨k, rfl⟩ := Nat.exists_eq_add_of_le normal
  obtain ⟨j, rfl⟩ : ∃ j : Nat, e = j - 150 := ⟨(e + 150).toNat, by omega⟩
  have mantissa : (BitVec.ofNat 23 k).toNat = k := by
    rw [BitVec.toNat_ofNat]
    omega
  have exponent : (BitVec.ofNat 8 j).toNat = j := by
    rw [BitVec.toNat_ofNat]
    omega
  have last : BitVec.ofNat 8 j ≠ -1#8 := fun h => by
    have : j = 255 := exponent.symm.trans (congrArg BitVec.toNat h)
    omega
  have first : BitVec.ofNat 8 j ≠ 0#8 := fun h => by
    have : j = 0 := exponent.symm.trans (congrArg BitVec.toNat h)
    omega
  have packed := pack_normal (s := s) (m := BitVec.ofNat 23 k) last (by omega)
  simp only [mantissa, exponent] at packed
  refine (congrArg _ packed).trans ?_
  rw [unpack_packComponents, if_neg last, if_neg first]
  simp only [mantissa, exponent]

theorem unpack_pack_subnormal (s : Sign) {m : Nat} {pos : 0 < m} (small : m < 0x800000) :
    UnpackedFloat.unpack .binary32 (pack .binary32 (.finite s m (-149) pos)) =
      .finite s m (-149) pos := by
  have mantissa : (BitVec.ofNat 23 m).toNat = m := by
    rw [BitVec.toNat_ofNat]
    omega
  have some : BitVec.ofNat 23 m ≠ 0#23 := fun h => by
    have : m = 0 := mantissa.symm.trans (congrArg BitVec.toNat h)
    omega
  have packed := pack_subnormal (s := s) some (by omega)
  simp only [mantissa] at packed
  refine (congrArg _ packed).trans ?_
  rw [unpack_packComponents, if_neg (by decide), if_pos rfl, dif_neg some]
  simp only [mantissa]

theorem unpack_pack {u : UnpackedFloat} (h : Canonical u) :
    UnpackedFloat.unpack .binary32 (pack .binary32 u) = u := by
  cases u with
  | notANumber => rfl
  | infinity s => cases s <;> rfl
  | zero s => cases s <;> rfl
  | finite s m e pos =>
    have h : Fits m e := h
    rcases Nat.lt_or_ge m 0x800000 with small | normal
    · obtain rfl : e = -149 := h.full.resolve_left (Nat.not_le_of_lt small)
      exact unpack_pack_subnormal s small
    · exact unpack_pack_normal s h normal

theorem unpack_pack_overflow {s : Sign} {m : Nat} {e : Int} {pos : 0 < m} (h : 104 < e) :
    UnpackedFloat.unpack .binary32 (pack .binary32 (.finite s m e pos)) = .infinity s := by
  have large : 256 ≤ (e + 127 + 23).toNat + 1 := by omega
  unfold UnpackedFloat.pack
  dsimp only
  split
  · cases s <;> rfl
  · next small => exact absurd large small

theorem two_zpow_pos (e : Int) : (0 : ℚ) < 2 ^ e := zpow_pos two_pos e

theorem two_zpow_add_nat (e : Int) (n : Nat) : (2 : ℚ) ^ (e + n) = 2 ^ n * 2 ^ e := by
  rw [zpow_add₀ two_ne_zero, zpow_natCast, mul_comm]

theorem amount_finite_pos {m : Nat} {e : Int} {pos : 0 < m} :
    0 < amountOf (.finite .positive m e pos) :=
  mul_pos (Int.cast_pos.mpr (Int.natCast_pos.mpr pos)) (two_zpow_pos e)

theorem amountOf_negative {m : Nat} {e : Int} {pos : 0 < m} :
    amountOf (.finite .negative m e pos) = -amountOf (.finite .positive m e pos) := by
  simp [amountOf, Sign.apply]

theorem Fits.lt_of_exponent {m m' : Nat} {e e' : Int} (h : Fits m e) (h' : Fits m' e') (he : e < e') :
    (m : ℚ) * 2 ^ e < m' * 2 ^ e' := by
  obtain ⟨n, rfl⟩ : ∃ n : Nat, e' = e + 1 + n := ⟨(e' - e - 1).toNat, by omega⟩
  have full : 0x800000 ≤ m' := h'.full.resolve_right (by have := h.least; omega)
  have short : (m : ℚ) < 0x1000000 := by exact_mod_cast h.short
  have tall : (0x800000 : ℚ) ≤ m' := by exact_mod_cast full
  have one_le : (1 : ℚ) ≤ 2 ^ n := one_le_pow₀ one_le_two
  have unit := two_zpow_pos e
  calc (m : ℚ) * 2 ^ e
    _ < 0x1000000 * 2 ^ e := mul_lt_mul_of_pos_right short unit
    _ = 0x800000 * (2 * 2 ^ e) := by ring
    _ ≤ m' * (2 ^ n * (2 * 2 ^ e)) :=
      mul_le_mul tall (le_mul_of_one_le_left (by positivity) one_le) (by positivity) (by positivity)
    _ = m' * 2 ^ (e + 1 + n) := by
      rw [two_zpow_add_nat, zpow_add_one₀ two_ne_zero]
      ring

theorem Fits.lt_reach {m : Nat} {e : Int} (h : Fits m e) : (m : ℚ) * 2 ^ e < 2 ^ (128 : ℤ) := by
  have short : (m : ℚ) < 0x1000000 := by exact_mod_cast h.short
  calc (m : ℚ) * 2 ^ e
    _ < 0x1000000 * 2 ^ e := mul_lt_mul_of_pos_right short (two_zpow_pos e)
    _ ≤ 0x1000000 * 2 ^ (104 : ℤ) := by
      gcongr
      · exact one_le_two
      · exact h.greatest
    _ = 2 ^ (128 : ℤ) := by norm_num

theorem Fits.compare {m m' : Nat} {e e' : Int} (h : Fits m e) (h' : Fits m' e') :
    (compare e e').then (compare m m') = cmp ((m : ℚ) * 2 ^ e) (m' * 2 ^ e') := by
  rcases lt_trichotomy e e' with less | rfl | greater
  · rw [compare_lt_iff_lt.mpr less, (cmp_eq_lt_iff _ _).mpr (h.lt_of_exponent h' less)]
    rfl
  · rw [compare_eq_iff_eq.mpr rfl, cmp_mul_pos_right (two_zpow_pos e)]
    have casts : StrictMono (Nat.cast : ℕ → ℚ) := Nat.strictMono_cast
    exact ((casts.cmp_map_eq m m').trans (cmp_eq_compare m m')).symm
  · rw [compare_gt_iff_gt.mpr greater, (cmp_eq_gt_iff _ _).mpr (h'.lt_of_exponent h greater)]
    rfl

theorem amountOf_infinity : amountOf (.infinity .positive) = 2 ^ (128 : ℤ) ∧
    amountOf (.infinity .negative) = -2 ^ (128 : ℤ) := by
  simp [amountOf, Sign.apply]

theorem abs_amountOf_finite (s : Sign) (m : Nat) (e : Int) (pos : 0 < m) :
    |amountOf (.finite s m e pos)| = m * 2 ^ e := by
  have some : 0 < amountOf (.finite .positive m e pos) := amount_finite_pos
  cases s with
  | positive => exact abs_of_pos some
  | negative => rw [amountOf_negative, abs_neg, abs_of_pos some]; rfl

theorem abs_amountOf_infinity (s : Sign) : |amountOf (.infinity s)| = 2 ^ (128 : ℤ) := by
  have reach := two_zpow_pos 128
  obtain ⟨top, bottom⟩ := amountOf_infinity
  cases s with
  | positive => rw [top, abs_of_pos reach]
  | negative => rw [bottom, abs_neg, abs_of_pos reach]

theorem abs_amountOf_lt {u : UnpackedFloat} (h : Canonical u) (finite : Finite u) :
    |amountOf u| < 2 ^ (128 : ℤ) := by
  cases u with
  | notANumber | infinity => exact finite.elim
  | zero => simp [amountOf]
  | finite s m e pos =>
    rw [abs_amountOf_finite]
    exact Fits.lt_reach h

theorem abs_amountOf_le {u : UnpackedFloat} (h : Canonical u) : |amountOf u| ≤ 2 ^ (128 : ℤ) := by
  cases u with
  | notANumber => simp [amountOf]
  | infinity s => exact (abs_amountOf_infinity s).le
  | zero | finite => exact (abs_amountOf_lt h trivial).le

theorem infinity_compare (s : Sign) {v : UnpackedFloat} (hv : Number v) :
    (UnpackedFloat.infinity s).compare v =
      some (cmp (amountOf (.infinity s)) (amountOf v)) := by
  have within (finite : Finite v) := abs_lt.mp (abs_amountOf_lt hv.canonical finite)
  have apart : amountOf (.infinity .negative) < amountOf (.infinity .positive) := by
    simp [amountOf, Sign.apply]
  cases v with
  | notANumber => exact absurd rfl hv.isNumber
  | infinity s' =>
    cases s with
    | positive =>
      cases s' with
      | positive => rw [cmp_self_eq_eq]; rfl
      | negative => rw [apart.cmp_eq_gt]; rfl
    | negative =>
      cases s' with
      | positive => rw [apart.cmp_eq_lt]; rfl
      | negative => rw [cmp_self_eq_eq]; rfl
  | zero | finite =>
    cases s with
    | positive => rw [amountOf_infinity.1, (within trivial).2.cmp_eq_gt]; rfl
    | negative => rw [amountOf_infinity.2, (within trivial).1.cmp_eq_lt]; rfl

theorem compare_infinity {u : UnpackedFloat} (hu : Canonical u) (finite : Finite u) (s : Sign) :
    u.compare (.infinity s) = some (cmp (amountOf u) (amountOf (.infinity s))) := by
  obtain ⟨above, below⟩ := abs_lt.mp (abs_amountOf_lt hu finite)
  cases s with
  | positive =>
    rw [amountOf_infinity.1, below.cmp_eq_lt]
    cases u with
    | notANumber | infinity => exact finite.elim
    | zero => rfl
    | finite s => cases s <;> rfl
  | negative =>
    rw [amountOf_infinity.2, above.cmp_eq_gt]
    cases u with
    | notANumber | infinity => exact finite.elim
    | zero => rfl
    | finite s => cases s <;> rfl

theorem compare_finite (s s' : Sign) {m m' : Nat} {e e' : Int} {pos : 0 < m} {pos' : 0 < m'}
    (h : Fits m e) (h' : Fits m' e') :
    (UnpackedFloat.finite s m e pos).compare (.finite s' m' e' pos') =
      some (cmp (amountOf (.finite s m e pos)) (amountOf (.finite s' m' e' pos'))) := by
  have some_left : 0 < amountOf (.finite .positive m e pos) := amount_finite_pos
  have some_right : 0 < amountOf (.finite .positive m' e' pos') := amount_finite_pos
  have magnitudes := Fits.compare h h'
  cases s with
  | positive =>
    cases s' with
    | positive => exact congrArg some magnitudes
    | negative =>
      have order : amountOf (.finite .negative m' e' pos') < amountOf (.finite .positive m e pos) := by
        rw [amountOf_negative]
        linarith
      rw [order.cmp_eq_gt]
      rfl
  | negative =>
    cases s' with
    | positive =>
      have order : amountOf (.finite .negative m e pos) < amountOf (.finite .positive m' e' pos') := by
        rw [amountOf_negative]
        linarith
      rw [order.cmp_eq_lt]
      rfl
    | negative =>
      have turned : StrictAnti (Neg.neg : ℚ → ℚ) := fun _ _ => neg_lt_neg
      rw [amountOf_negative, amountOf_negative, turned.cmp_map_eq, ← cmp_swap]
      exact congrArg (some ·.swap) magnitudes

theorem compare_amount {u v : UnpackedFloat} (hu : Number u) (hv : Number v) :
    u.compare v = some (cmp (amountOf u) (amountOf v)) := by
  have some (m e pos) : 0 < amountOf (.finite .positive m e pos) := amount_finite_pos
  have less (m e pos) : amountOf (.finite .negative m e pos) < 0 :=
    amountOf_negative ▸ neg_neg_of_pos amount_finite_pos
  have none (s) : amountOf (.zero s) = 0 := rfl
  cases u with
  | notANumber => exact absurd rfl hu.isNumber
  | infinity s => exact infinity_compare s hv
  | zero s =>
    cases v with
    | notANumber => exact absurd rfl hv.isNumber
    | infinity s' => exact compare_infinity hu.canonical trivial s'
    | zero s' => rw [none, none, cmp_self_eq_eq]; rfl
    | finite s' m e pos =>
      cases s' with
      | positive => rw [none, (some m e pos).cmp_eq_lt]; rfl
      | negative => rw [none, (less m e pos).cmp_eq_gt]; rfl
  | finite s m e pos =>
    cases v with
    | notANumber => exact absurd rfl hv.isNumber
    | infinity s' => exact compare_infinity hu.canonical trivial s'
    | zero s' =>
      cases s with
      | positive => rw [none, (some m e pos).cmp_eq_gt]; rfl
      | negative => rw [none, (less m e pos).cmp_eq_lt]; rfl
    | finite s' m' e' pos' => exact compare_finite s s' hu.canonical hv.canonical

section Order
variable {x y : Single}

theorem isNaN_iff_bits : x.isNaN ↔ 0x7f800000 < x.bits.toNat % 0x80000000 := by
  have masked : x.bits.toNat &&& 0x7fffffff = x.bits.toNat % 0x80000000 :=
    Nat.and_two_pow_sub_one_eq_mod x.bits.toNat 31
  unfold isNaN
  rw [decide_eq_true_iff, UInt32.lt_iff_toNat_lt, UInt32.toNat_and]
  exact iff_of_eq (congrArg (0x7f800000 < ·) masked)

theorem view_eq_notANumber : x.view = .notANumber ↔ x.isNaN := by
  obtain ⟨s, e, m, bits⟩ := exists_packComponents x.bits.toBitVec
  have short : m.toNat < 0x800000 := m.isLt
  have bound : e.toNat < 256 := e.isLt
  have value := toNat_packComponents s e m
  rw [bits] at value
  have value : x.bits.toNat = s.toBitVec.toNat * 0x80000000 + e.toNat * 0x800000 + m.toNat := value
  rw [isNaN_iff_bits, value]
  unfold view
  rw [← bits, unpack_packComponents]
  have last : e = -1#8 ↔ e.toNat = 255 := BitVec.toNat_inj.symm
  have empty : m = 0#23 ↔ m.toNat = 0 := BitVec.toNat_inj.symm
  split
  · next h =>
    rw [last] at h
    split
    · next h0 =>
      rw [empty] at h0
      exact iff_of_false nofun (by omega)
    · next h0 =>
      rw [empty] at h0
      exact iff_of_true rfl (by omega)
  · next h =>
    rw [last] at h
    split
    · split <;> exact iff_of_false nofun (by omega)
    · exact iff_of_false nofun (by omega)

theorem view_ne_notANumber : x.view ≠ .notANumber ↔ x.isNaN = false := by
  rw [ne_eq, view_eq_notANumber, Bool.not_eq_true]

theorem le_iff_compare : x ≤ y ↔ (x.view.compare y.view).any (·.isLE) := by
  unfold view
  rw [← unpack_pack_unpack x.bits.toBitVec, ← unpack_pack_unpack y.bits.toBitVec]
  exact decide_eq_true_iff

theorem lt_iff_compare : x < y ↔ x.view.compare y.view = some .lt := by
  unfold view
  rw [← unpack_pack_unpack x.bits.toBitVec, ← unpack_pack_unpack y.bits.toBitVec, ← beq_iff_eq]
  exact decide_eq_true_iff

theorem number_view (hx : x.isNaN = false) : Number x.view :=
  ⟨x.view_canonical, view_ne_notANumber.mpr hx⟩

theorem compare_view (hx : x.isNaN = false) (hy : y.isNaN = false) :
    x.view.compare y.view = some (cmp x.amount y.amount) :=
  compare_amount (number_view hx) (number_view hy)

theorem compare_notANumber {u v : UnpackedFloat} (h : u = .notANumber ∨ v = .notANumber) :
    u.compare v = none := by
  rcases h with rfl | rfl
  · rfl
  · cases u <;> rfl

theorem numbers_of_compare {o : Ordering} (h : x.view.compare y.view = some o) :
    x.isNaN = false ∧ y.isNaN = false := by
  constructor <;> refine view_ne_notANumber.mp fun no => ?_
  · exact absurd (h.symm.trans (compare_notANumber (.inl no))) nofun
  · exact absurd (h.symm.trans (compare_notANumber (.inr no))) nofun

theorem le_iff : x ≤ y ↔ x.isNaN = false ∧ y.isNaN = false ∧ x.amount ≤ y.amount := by
  rw [le_iff_compare]
  constructor
  · intro h
    obtain ⟨o, compared, le⟩ := (Option.any_eq_true _ _).mp h
    obtain ⟨hx, hy⟩ := numbers_of_compare compared
    rw [compare_view hx hy, Option.some_inj] at compared
    rw [← compared, Ordering.isLE_iff_ne_gt] at le
    exact ⟨hx, hy, not_lt.mp (mt (cmp_eq_gt_iff _ _).mpr le)⟩
  · rintro ⟨hx, hy, le⟩
    rw [compare_view hx hy, Option.any_some, Ordering.isLE_iff_ne_gt]
    exact mt (cmp_eq_gt_iff _ _).mp (not_lt.mpr le)

theorem lt_iff : x < y ↔ x.isNaN = false ∧ y.isNaN = false ∧ x.amount < y.amount := by
  rw [lt_iff_compare]
  constructor
  · intro h
    obtain ⟨hx, hy⟩ := numbers_of_compare h
    rw [compare_view hx hy, Option.some_inj, cmp_eq_lt_iff] at h
    exact ⟨hx, hy, h⟩
  · rintro ⟨hx, hy, lt⟩
    rw [compare_view hx hy, Option.some_inj, cmp_eq_lt_iff]
    exact lt

theorem le_refl_of_number (hx : x.isNaN = false) : x ≤ x := le_iff.mpr ⟨hx, hx, le_rfl⟩

protected theorem le_trans {z : Single} (h : x ≤ y) (h' : y ≤ z) : x ≤ z := by
  obtain ⟨hx, _, le⟩ := le_iff.mp h
  obtain ⟨_, hz, le'⟩ := le_iff.mp h'
  exact le_iff.mpr ⟨hx, hz, le.trans le'⟩

protected theorem le_of_lt (h : x < y) : x ≤ y := by
  obtain ⟨hx, hy, lt⟩ := lt_iff.mp h
  exact le_iff.mpr ⟨hx, hy, lt.le⟩

protected theorem lt_of_lt_of_le {z : Single} (h : x < y) (h' : y ≤ z) : x < z := by
  obtain ⟨hx, _, lt⟩ := lt_iff.mp h
  obtain ⟨_, hz, le⟩ := le_iff.mp h'
  exact lt_iff.mpr ⟨hx, hz, lt.trans_le le⟩

protected theorem lt_of_le_of_lt {z : Single} (h : x ≤ y) (h' : y < z) : x < z := by
  obtain ⟨hx, _, le⟩ := le_iff.mp h
  obtain ⟨_, hz, lt⟩ := lt_iff.mp h'
  exact lt_iff.mpr ⟨hx, hz, le.trans_lt lt⟩

protected theorem lt_irrefl (x : Single) : ¬ x < x := fun less => lt_irrefl _ (lt_iff.mp less).2.2

/-- Of two numbers one is no greater than the other. -/
protected theorem le_of_not_lt (hx : x.isNaN = false) (hy : y.isNaN = false) (h : ¬ x < y) : y ≤ x :=
  le_iff.mpr ⟨hy, hx, not_lt.mp fun lt => h (lt_iff.mpr ⟨hx, hy, lt⟩)⟩

protected theorem lt_of_not_le (hx : x.isNaN = false) (hy : y.isNaN = false) (h : ¬ x ≤ y) : y < x :=
  lt_iff.mpr ⟨hy, hx, not_le.mp fun le => h (le_iff.mpr ⟨hx, hy, le⟩)⟩

end Order

end SharedWorld.Single
