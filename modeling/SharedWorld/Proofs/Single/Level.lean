import Mathlib
import SharedWorld.Space

/-! Numbers that compare as equal. They have the same bits, or both are a zero: on the way into the
machine's numbers and back only what is no number loses its bits. -/
namespace SharedWorld.Single
open Float.Model Float.Model.UnpackedFloat

/-- The same bits, or zeros that differ in sign at most. -/
def Level (x y : Single) : Prop := x = y ∨ (x.abs = .zero ∧ y.abs = .zero)

instance (x y : Single) : Decidable (x.Level y) := inferInstanceAs (Decidable (_ ∨ _))

theorem Level.refl (x : Single) : x.Level x := .inl rfl

theorem Level.trans {x y z : Single} (h : x.Level y) (h' : y.Level z) : x.Level z := by
  rcases h with rfl | ⟨hx, hy⟩
  · exact h'
  · rcases h' with rfl | ⟨_, hz⟩
    · exact .inr ⟨hx, hy⟩
    · exact .inr ⟨hx, hz⟩

theorem Level.symm {x y : Single} (h : x.Level y) : y.Level x :=
  h.imp Eq.symm And.symm

section Fields
variable (s : Sign) (e : BitVec 8) (m : BitVec 23) (b : BitVec 32)

theorem toNat_packComponents : (packComponents .binary32 s e m).toNat =
    s.toBitVec.toNat * 0x80000000 + e.toNat * 0x800000 + m.toNat := by
  unfold packComponents
  rw [BitVec.toNat_append, BitVec.toNat_append, ← Nat.shiftLeft_add_eq_or_of_lt e.isLt,
    ← Nat.shiftLeft_add_eq_or_of_lt m.isLt]
  simp only [Nat.shiftLeft_eq]
  omega

theorem toNat_unpackMantissa :
    (unpackMantissa b : BitVec Format.binary32.mantissaBitsWithoutImplicit).toNat =
      b.toNat % 0x800000 := by
  simp [unpackMantissa]

theorem toNat_unpackExponent :
    (unpackExponent b : BitVec Format.binary32.exponentBits).toNat = b.toNat / 0x800000 % 256 := by
  simp [unpackExponent, Nat.shiftRight_eq_div_pow]

theorem toNat_unpackSign : (@unpackSign .binary32 b).toNat = b.toNat / 0x80000000 := by
  have := b.isLt
  simp [unpackSign, Nat.shiftRight_eq_div_pow]
  omega

theorem unpackSign_packComponents : unpackSign (packComponents .binary32 s e m) = s.toBitVec := by
  refine BitVec.eq_of_toNat_eq ?_
  rw [toNat_unpackSign, toNat_packComponents]
  have := e.isLt
  have := m.isLt
  omega

theorem toBitVec_ofBitVec (b : BitVec 1) : (Sign.ofBitVec b).toBitVec = b := by
  revert b
  decide

theorem ofBitVec_toBitVec : Sign.ofBitVec s.toBitVec = s := by cases s <;> rfl

theorem exists_packComponents : ∃ s e m, packComponents .binary32 s e m = b := by
  refine ⟨Sign.ofBitVec (@unpackSign .binary32 b), unpackExponent b, unpackMantissa b,
    BitVec.eq_of_toNat_eq ?_⟩
  rw [toNat_packComponents, toBitVec_ofBitVec, toNat_unpackMantissa, toNat_unpackExponent,
    toNat_unpackSign]
  have := b.isLt
  omega

theorem toNat_leadingOne : (1#1 ++ m).toNat = 0x800000 + m.toNat := by
  rw [BitVec.toNat_append, ← Nat.shiftLeft_add_eq_or_of_lt m.isLt]
  rfl

end Fields

section Packing
variable {s : Sign} {e : BitVec 8} {m : BitVec 23}

theorem unpack_packComponents : UnpackedFloat.unpack .binary32 (packComponents .binary32 s e m) =
    if e = -1#8 then if m = 0#23 then .infinity s else .notANumber
    else if e = 0#8 then
      if h : m = 0#23 then .zero s
      else .finite s m.toNat (-149) (by simpa [BitVec.toNat_pos, BitVec.pos_iff_ne_zero])
    else .finite s (0x800000 + m.toNat) ((e.toNat : Int) - 150) (by omega) := by
  unfold UnpackedFloat.unpack
  simp only [unpackExponent_packComponents, unpackMantissa_packComponents,
    unpackSign_packComponents, ofBitVec_toBitVec]
  split
  · rfl
  split
  · next h =>
    subst h
    split <;> rfl
  · simp only [toNat_leadingOne]
    rfl

theorem pack_subnormal (hm : m ≠ 0#23) (pos : 0 < m.toNat) :
    pack .binary32 (.finite s m.toNat (-149) pos) = packComponents .binary32 s 0#8 m := by
  have short : m.toNat.log2 < 23 :=
    (Nat.log2_lt (by simpa [BitVec.toNat_eq] using hm)).mpr m.isLt
  unfold UnpackedFloat.pack
  dsimp only
  split
  · next large => exact absurd large (by decide)
  split
  · next normal =>
    have : m.toNat.log2 + 1 = 24 := normal
    omega
  · rw [BitVec.ofNat_toNat, BitVec.setWidth_eq]

theorem pack_normal (he : e ≠ -1#8) (pos : 0 < 0x800000 + m.toNat) :
    pack .binary32 (.finite s (0x800000 + m.toNat) ((e.toNat : Int) - 150) pos) =
      packComponents .binary32 s e m := by
  have bound := m.isLt
  have full : (0x800000 + m.toNat).log2 = 23 := by
    rw [Nat.log2_eq_iff (by omega)]
    omega
  have exponent : ((e.toNat : Int) - 150 + Format.binary32.exponentBias +
      Format.binary32.mantissaBitsWithoutImplicit).toNat = e.toNat := by
    show ((e.toNat : Int) - 150 + 127 + 23).toNat = e.toNat
    omega
  have mantissa : BitVec.ofNat 23 (0x800000 + m.toNat) = m := by
    refine BitVec.eq_of_toNat_eq ?_
    rw [BitVec.toNat_ofNat]
    omega
  unfold UnpackedFloat.pack
  dsimp only
  rw [exponent, full]
  split
  · next large =>
    have : 256 ≤ e.toNat + 1 := large
    have : e.toNat ≠ 255 := fun h => he (BitVec.eq_of_toNat_eq h)
    have := e.isLt
    omega
  split
  · rw [BitVec.ofNat_toNat, BitVec.setWidth_eq]
    exact congrArg _ mantissa
  · next other => exact absurd rfl other

theorem pack_unpack {b : BitVec 32}
    (h : UnpackedFloat.unpack .binary32 b ≠ .notANumber) :
    pack .binary32 (UnpackedFloat.unpack .binary32 b) = b := by
  obtain ⟨s, e, m, rfl⟩ := exists_packComponents b
  rw [unpack_packComponents] at h ⊢
  by_cases he : e = -1#8
  · by_cases hm : m = 0#23
    · rw [if_pos he, if_pos hm, he, hm]
      rfl
    · exact absurd (by rw [if_pos he, if_neg hm]) h
  · rw [if_neg he]
    by_cases h0 : e = 0#8
    · subst h0
      rw [if_pos rfl]
      by_cases hm : m = 0#23
      · rw [dif_pos hm, hm]
        rfl
      · rw [dif_neg hm]
        exact pack_subnormal hm _
    · rw [if_neg h0]
      exact pack_normal he _

theorem unpack_pack_unpack (b : BitVec 32) :
    UnpackedFloat.unpack .binary32 (pack .binary32 (UnpackedFloat.unpack .binary32 b)) =
      UnpackedFloat.unpack .binary32 b := by
  by_cases h : UnpackedFloat.unpack .binary32 b = .notANumber
  · rw [h]
    rfl
  · rw [pack_unpack h]

end Packing

/-- Two signed zeros compare as equal; all else only with itself. -/
theorem eq_of_compare {u v : UnpackedFloat} (h : u.compare v = some .eq) :
    u ≠ .notANumber ∧ v ≠ .notANumber ∧ (u = v ∨ ∃ s s', u = .zero s ∧ v = .zero s') := by
  cases u with
  | notANumber => cases h
  | infinity s =>
    cases v with
    | infinity s' => cases s <;> cases s' <;> simp_all [UnpackedFloat.compare, compare]
    | _ => cases s <;> simp_all [UnpackedFloat.compare]
  | zero s =>
    cases v with
    | zero s' => exact ⟨by simp, by simp, .inr ⟨s, s', rfl, rfl⟩⟩
    | infinity s' | finite s' => cases s' <;> simp_all [UnpackedFloat.compare]
    | notANumber => cases h
  | finite s m e pos =>
    cases v with
    | finite s' m' e' pos' =>
      cases s <;> cases s' <;>
        simp_all [UnpackedFloat.compare, Ordering.then_eq_eq]
    | infinity s' => cases s <;> cases s' <;> simp_all [UnpackedFloat.compare]
    | zero => cases s <;> simp_all [UnpackedFloat.compare]
    | notANumber => cases s <;> cases h

theorem same_iff_compare {x y : Single} : x.same y ↔
    (UnpackedFloat.unpack .binary32 x.bits.toBitVec).compare
      (UnpackedFloat.unpack .binary32 y.bits.toBitVec) = some .eq := by
  rw [← unpack_pack_unpack x.bits.toBitVec, ← unpack_pack_unpack y.bits.toBitVec]
  show (UnpackedFloat.compare _ _ == some .eq) = true ↔ _
  exact beq_iff_eq

theorem abs_of_unpack {x : Single} {s : Sign}
    (h : UnpackedFloat.unpack .binary32 x.bits.toBitVec = .zero s) : x.abs = .zero := by
  have bits := pack_unpack (b := x.bits.toBitVec) (by rw [h]; exact nofun)
  rw [h] at bits
  have : x.bits = UInt32.ofBitVec (packedZero .binary32 s) := UInt32.toBitVec_inj.mp bits.symm
  rw [abs, this]
  cases s <;> rfl

theorem same_self {x y : Single} (h : x.same y) : x.same x := by
  have equal := same_iff_compare.mp h
  refine same_iff_compare.mpr ?_
  obtain ⟨_, _, same | ⟨s, _, zero_x, _⟩⟩ := eq_of_compare equal
  · rwa [← same] at equal
  · rw [zero_x]
    rfl

theorem level_of_same {x y : Single} (h : x.same y) : x.Level y := by
  obtain ⟨hx, hy, same | ⟨s, s', zero_x, zero_y⟩⟩ := eq_of_compare (same_iff_compare.mp h)
  · have bits : x.bits.toBitVec = y.bits.toBitVec := by
      rw [← pack_unpack hx, same, pack_unpack hy]
    exact .inl (congrArg mk (UInt32.toBitVec_inj.mp bits))
  · exact .inr ⟨abs_of_unpack zero_x, abs_of_unpack zero_y⟩

end SharedWorld.Single

namespace SharedWorld.Vec3
variable {a b c : Vec3}

/-- Level in each coordinate. -/
structure Level (a b : Vec3) : Prop where
  x : a.x.Level b.x
  y : a.y.Level b.y
  z : a.z.Level b.z

theorem Level.refl (a : Vec3) : a.Level a := ⟨.refl _, .refl _, .refl _⟩

theorem Level.trans (h : a.Level b) (h' : b.Level c) : a.Level c :=
  ⟨h.x.trans h'.x, h.y.trans h'.y, h.z.trans h'.z⟩

theorem Level.symm (h : a.Level b) : b.Level a := ⟨h.x.symm, h.y.symm, h.z.symm⟩

theorem same_self (h : a.same b) : a.same a := by
  simp only [same, Bool.and_eq_true] at h ⊢
  exact ⟨⟨Single.same_self h.1.1, Single.same_self h.1.2⟩, Single.same_self h.2⟩

theorem level_of_same (h : a.same b) : a.Level b := by
  simp only [same, Bool.and_eq_true] at h
  exact ⟨Single.level_of_same h.1.1, Single.level_of_same h.1.2, Single.level_of_same h.2⟩

end SharedWorld.Vec3
