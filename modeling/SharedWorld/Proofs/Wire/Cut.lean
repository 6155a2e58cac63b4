import SharedWorld.Proofs.Wire.Faithful

/-! Text that is too long for its count is cut to the longest run of whole characters that fits; text
that fits is left alone. -/
namespace SharedWorld.Wire

namespace Text

/-- Of all that `s` begins with, `t` is the longest that takes no more bytes than the limit. -/
structure LongestWithin (limit : Nat) (s t : String) : Prop where
  isPrefix : t.toList <+: s.toList
  fits : t.utf8ByteSize ≤ limit
  longest : ∀ u : String, u.toList <+: s.toList → u.utf8ByteSize ≤ limit → u.toList <+: t.toList

theorem LongestWithin.eq_of_fits {limit : Nat} {s t : String} (h : LongestWithin limit s t)
    (fits : s.utf8ByteSize ≤ limit) : t = s := by
  have whole : s.toList <+: t.toList := h.longest s (List.prefix_refl _) fits
  have same : t.toList = s.toList :=
    h.isPrefix.eq_of_length (Nat.le_antisymm h.isPrefix.length_le whole.length_le)
  exact String.toList_inj.mp same

theorem utf8ByteSize_cons (c : Char) (cs : List Char) :
    (String.ofList (c :: cs)).utf8ByteSize = c.utf8Size + (String.ofList cs).utf8ByteSize := by
  have split : String.ofList (c :: cs) = String.singleton c ++ String.ofList cs := by
    rw [String.singleton_eq_ofList, ← String.ofList_append]
    rfl
  rw [split, String.utf8ByteSize_append, String.utf8ByteSize_singleton]

theorem cut_prefix (budget : Nat) (cs : List Char) : cut budget cs <+: cs := by
  induction cs generalizing budget with
  | nil => exact List.prefix_refl []
  | cons c cs ih =>
    unfold cut
    split
    · exact List.cons_prefix_cons.mpr ⟨rfl, ih _⟩
    · exact List.nil_prefix

theorem cut_fits (budget : Nat) (cs : List Char) :
    (String.ofList (cut budget cs)).utf8ByteSize ≤ budget := by
  induction cs generalizing budget with
  | nil => exact Nat.zero_le _
  | cons c cs ih =>
    unfold cut
    split
    · next fits =>
      have rest := ih (budget - c.utf8Size)
      rw [utf8ByteSize_cons]
      omega
    · exact Nat.zero_le _

theorem prefix_cut {budget : Nat} {cs front : List Char} (h : front <+: cs)
    (fits : (String.ofList front).utf8ByteSize ≤ budget) : front <+: cut budget cs := by
  induction cs generalizing budget front with
  | nil => exact h
  | cons c cs ih =>
    cases front with
    | nil => exact List.nil_prefix
    | cons d front =>
      obtain ⟨rfl, rest⟩ := List.cons_prefix_cons.mp h
      rw [utf8ByteSize_cons] at fits
      unfold cut
      rw [if_pos (by omega)]
      exact List.cons_prefix_cons.mpr ⟨rfl, ih rest (by omega)⟩

theorem truncate_longest (s : String) : LongestWithin limit s (truncate s) where
  isPrefix := by
    rw [truncate, String.toList_ofList]
    exact cut_prefix limit s.toList
  fits := cut_fits limit s.toList
  longest u h fits := by
    rw [truncate, String.toList_ofList]
    exact prefix_cut h (by rwa [String.ofList_toList])

theorem truncate_eq_iff {s : String} : truncate s = s ↔ s.utf8ByteSize ≤ limit := by
  constructor
  · intro h
    rw [← h]
    exact (truncate_longest s).fits
  · exact (truncate_longest s).eq_of_fits

theorem encode_length (s : String) : (encode s).length = s.utf8ByteSize := Array.length_toList

end Text

open Wire.Text in
theorem Layout.text_faithful : text.Faithful truncate where
  write_of_read {bytes rest s} hr := by
    obtain ⟨count, mid, hc, hr⟩ := Reader.bind_eq_ok.mp hr
    obtain ⟨bs, last, hb, spells⟩ := Reader.bind_eq_ok.mp hr
    obtain ⟨length, rfl⟩ := Faithful.bytes_eq_ok.mp hb
    cases ht : decode? bs with
    | none =>
      rw [ht] at spells
      cases spells
    | some t =>
      rw [ht] at spells
      obtain ⟨rfl, rfl⟩ := Reader.pure_eq_ok.mp spells
      have spelt := eq_encode_of_decode? ht
      have small := count.toNat_lt
      have fits : t.utf8ByteSize ≤ limit := by
        rw [← encode_length, ← spelt, length]
        exact Nat.le_of_lt_succ small
      have front : UInt16.ofNat bs.length = count := by rw [length, UInt16.ofNat_toNat]
      change (u16.write (.ofNat (encode (truncate t)).length) ++ encode (truncate t)) ++ last = bytes
      rw [truncate_eq_iff.mpr fits, ← spelt, front, List.append_assoc]
      exact u16_exact.write_of_read hc
  read_write s rest := by
    have fits : (encode (truncate s)).length ≤ 65535 := by
      rw [encode_length]
      exact (truncate_longest s).fits
    have count : (UInt16.ofNat (encode (truncate s)).length).toNat = (encode (truncate s)).length :=
      UInt16.toNat_ofNat_of_lt' (by simp [UInt16.size]; omega)
    change text.read ((u16.write (.ofNat (encode (truncate s)).length) ++ encode (truncate s)) ++
      rest) = _
    rw [List.append_assoc]
    refine (Reader.bind_of_ok (u16_exact.read_write _ _) _).trans ?_
    rw [count]
    refine (Reader.bind_of_ok (Faithful.bytes_eq_ok.mpr ⟨rfl, rfl⟩) _).trans ?_
    rw [decode?_encode]
    rfl

end SharedWorld.Wire
