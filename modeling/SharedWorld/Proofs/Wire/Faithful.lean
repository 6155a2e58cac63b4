import Mathlib.Data.Vector.Basic
import SharedWorld.Wire.Layout

/-! Readers and writers of a layout belong together: whatever is read off is what the writer would
put there, byte for byte, and whatever is written is read back, up to a normal form that the layout
gives its values. Layouts that are put together from such layouts are such layouts. -/
namespace SharedWorld.Wire

namespace Reader
variable {α β : Type}

theorem bind_eq_ok {r : Reader α} {f : α → Reader β} {bytes rest : List UInt8} {b : β} :
    (r >>= f) bytes = (.ok b, rest) ↔ ∃ a mid, r bytes = (.ok a, mid) ∧ f a mid = (.ok b, rest) := by
  change r.bind f bytes = _ ↔ _
  unfold Reader.bind
  split
  · next a mid h =>
    constructor
    · intro hf
      exact ⟨a, mid, h, hf⟩
    · rintro ⟨a', mid', h', hf⟩
      cases h.symm.trans h'
      exact hf
  · next e mid h => simp [h]

theorem bind_of_ok {r : Reader α} {bytes rest : List UInt8} {a : α} (h : r bytes = (.ok a, rest))
    (f : α → Reader β) : (r >>= f) bytes = f a rest := by
  change r.bind f bytes = _
  unfold Reader.bind
  rw [h]

theorem pure_eq_ok {a b : α} {bytes rest : List UInt8} :
    (pure a : Reader α) bytes = (.ok b, rest) ↔ a = b ∧ bytes = rest := by
  change ((.ok a, bytes) : Except DecodeError α × List UInt8) = _ ↔ _
  simp

end Reader

namespace Layout
variable {α β : Type}

/-- Reading and writing agree; a value that was written comes back in its normal form. -/
structure Faithful (layout : Layout α) (normal : α → α) : Prop where
  write_of_read : ∀ {bytes rest : List UInt8} {a : α}, layout.read bytes = (.ok a, rest) →
    layout.write a ++ rest = bytes
  read_write : ∀ (a : α) (rest : List UInt8),
    layout.read (layout.write a ++ rest) = (.ok (normal a), rest)

/-- Every value comes back as it was. -/
abbrev Exact (layout : Layout α) : Prop := layout.Faithful fun a => a

theorem byte_eq {n : Nat} {b : UInt8} (h : n % 256 = b.toNat) : UInt8.ofNat n = b := by
  rw [← UInt8.toNat_inj, UInt8.toNat_ofNat']
  exact h

theorem u8_exact : u8.Exact where
  write_of_read {bytes rest a} h := by
    cases bytes with
    | nil => cases h
    | cons b bytes =>
      cases h
      rfl
  read_write _ _ := rfl

theorem u16_exact : u16.Exact where
  write_of_read {bytes rest n} h := by
    match bytes, h with
    | a :: b :: bytes, h =>
      cases h
      have ha := a.toNat_lt
      have hb := b.toNat_lt
      have whole : (UInt16.ofNat (a.toNat + 256 * b.toNat)).toNat = a.toNat + 256 * b.toNat :=
        UInt16.toNat_ofNat_of_lt' (by simp [UInt16.size]; omega)
      have low : UInt8.ofNat (a.toNat + 256 * b.toNat) = a := byte_eq (by omega)
      have high : UInt8.ofNat ((a.toNat + 256 * b.toNat) / 256) = b := byte_eq (by omega)
      simp only [u16, whole, low, high, List.cons_append, List.nil_append]
    | [_], h => cases h
    | [], h => cases h
  read_write n rest := by
    have hn := n.toNat_lt
    have whole : UInt16.ofNat ((UInt8.ofNat n.toNat).toNat +
        256 * (UInt8.ofNat (n.toNat / 256)).toNat) = n := by
      rw [← UInt16.toNat_inj]
      simp only [UInt16.toNat_ofNat', UInt8.toNat_ofNat']
      omega
    simp only [u16, List.cons_append, List.nil_append, Reader.u16, whole]

theorem u32_exact : u32.Exact where
  write_of_read {bytes rest n} h := by
    match bytes, h with
    | a :: b :: c :: d :: bytes, h =>
      cases h
      have ha := a.toNat_lt
      have hb := b.toNat_lt
      have hc := c.toNat_lt
      have hd := d.toNat_lt
      generalize hn : a.toNat + 256 * (b.toNat + 256 * (c.toNat + 256 * d.toNat)) = n
      have whole : (UInt32.ofNat n).toNat = n :=
        UInt32.toNat_ofNat_of_lt' (by simp [UInt32.size]; omega)
      have first : UInt8.ofNat n = a := byte_eq (by omega)
      have second : UInt8.ofNat (n / 256) = b := byte_eq (by omega)
      have third : UInt8.ofNat (n / 65536) = c := byte_eq (by omega)
      have fourth : UInt8.ofNat (n / 16777216) = d := byte_eq (by omega)
      simp only [u32, whole, first, second, third, fourth, List.cons_append, List.nil_append]
    | [_, _, _], h => cases h
    | [_, _], h => cases h
    | [_], h => cases h
    | [], h => cases h
  read_write n rest := by
    have hn := n.toNat_lt
    have whole : UInt32.ofNat ((UInt8.ofNat n.toNat).toNat +
        256 * ((UInt8.ofNat (n.toNat / 256)).toNat + 256 * ((UInt8.ofNat (n.toNat / 65536)).toNat +
          256 * (UInt8.ofNat (n.toNat / 16777216)).toNat))) = n := by
      rw [← UInt32.toNat_inj]
      simp only [UInt32.toNat_ofNat', UInt8.toNat_ofNat']
      omega
    simp only [u32, List.cons_append, List.nil_append, Reader.u32, whole]

namespace Faithful
variable {layout : Layout α} {second : Layout β} {normal : α → α} {m : β → β}

theorem congr (h : layout.Faithful normal) {normal' : α → α} (same : ∀ a, normal a = normal' a) :
    layout.Faithful normal' where
  write_of_read := h.write_of_read
  read_write a rest := by rw [h.read_write, same]

theorem both (h : layout.Faithful normal) (h' : second.Faithful m) :
    (layout.both second).Faithful (Prod.map normal m) where
  write_of_read {bytes rest x} hr := by
    obtain ⟨a, mid, ha, hr⟩ := Reader.bind_eq_ok.mp hr
    obtain ⟨b, last, hb, hr⟩ := Reader.bind_eq_ok.mp hr
    obtain ⟨rfl, rfl⟩ := Reader.pure_eq_ok.mp hr
    calc
      (layout.write a ++ second.write b) ++ last = layout.write a ++ (second.write b ++ last) :=
        List.append_assoc ..
      _ = layout.write a ++ mid := by rw [h'.write_of_read hb]
      _ = bytes := h.write_of_read ha
  read_write x rest := by
    obtain ⟨a, b⟩ := x
    change (layout.both second).read ((layout.write a ++ second.write b) ++ rest) = _
    rw [List.append_assoc]
    refine (Reader.bind_of_ok (h.read_write a _) _).trans ?_
    exact (Reader.bind_of_ok (h'.read_write b rest) _).trans rfl

theorem accept (h : layout.Faithful normal) {make : α → Except DecodeError β} {take : β → α}
    (take_make : ∀ {a b}, make a = .ok b → take b = a)
    (make_take : ∀ b, make (normal (take b)) = .ok (m b)) :
    (layout.accept make take).Faithful m where
  write_of_read {bytes rest b} hr := by
    obtain ⟨a, mid, ha, hr⟩ := Reader.bind_eq_ok.mp hr
    cases hm : make a with
    | error e =>
      rw [hm] at hr
      cases hr
    | ok b' =>
      rw [hm] at hr
      cases hr
      change layout.write (take b) ++ rest = bytes
      rw [take_make hm]
      exact h.write_of_read ha
  read_write b rest := by
    refine (Reader.bind_of_ok (h.read_write (take b) rest) _).trans ?_
    rw [make_take]
    rfl

theorem «as» (h : layout.Faithful normal) {make : α → β} {take : β → α}
    (take_make : ∀ a, take (make a) = a) :
    (layout.as make take).Faithful fun b => make (normal (take b)) where
  write_of_read {bytes rest b} hr := by
    obtain ⟨a, mid, ha, hr⟩ := Reader.bind_eq_ok.mp hr
    obtain ⟨rfl, rfl⟩ := Reader.pure_eq_ok.mp hr
    change layout.write (take (make a)) ++ mid = bytes
    rw [take_make]
    exact h.write_of_read ha
  read_write b rest := (Reader.bind_of_ok (h.read_write (take b) rest) _).trans rfl

theorem flag (field : String) : (Layout.flag field).Exact := by
  refine u8_exact.accept (fun {n b} h => ?_) fun b => ?_
  · split at h
    · next hn =>
      cases h
      simp [hn]
    · split at h
      · next hn =>
        cases h
        simp [hn]
      · cases h
  · cases b <;> rfl

theorem optional (h : layout.Faithful normal) (field : String) :
    (layout.optional field).Faithful (Option.map normal) where
  write_of_read {bytes rest o} hr := by
    obtain ⟨there, mid, hf, hr⟩ := Reader.bind_eq_ok.mp hr
    have first := (flag field).write_of_read hf
    cases there with
    | false =>
      obtain ⟨rfl, rfl⟩ := Reader.pure_eq_ok.mp hr
      exact first
    | true =>
      obtain ⟨a, last, ha, hr⟩ := Reader.bind_eq_ok.mp hr
      obtain ⟨rfl, rfl⟩ := Reader.pure_eq_ok.mp hr
      change ((Layout.flag field).write true ++ layout.write a) ++ last = bytes
      rw [List.append_assoc, h.write_of_read ha]
      exact first
  read_write o rest := by
    cases o with
    | none => exact (Reader.bind_of_ok ((flag field).read_write false rest) _).trans rfl
    | some a =>
      change (layout.optional field).read (((Layout.flag field).write true ++ layout.write a) ++
        rest) = _
      rw [List.append_assoc]
      refine (Reader.bind_of_ok ((flag field).read_write true _) _).trans ?_
      exact (Reader.bind_of_ok (h.read_write a rest) _).trans rfl

theorem write_of_replicate (h : layout.Faithful normal) {n : Nat} {bytes rest : List UInt8}
    {as : List α} (hr : layout.read.replicate n bytes = (.ok as, rest)) :
    as.length = n ∧ as.flatMap layout.write ++ rest = bytes := by
  induction n generalizing bytes as with
  | zero =>
    cases hr
    exact ⟨rfl, rfl⟩
  | succ n ih =>
    obtain ⟨a, mid, ha, hr⟩ := Reader.bind_eq_ok.mp hr
    obtain ⟨as', last, has, hr⟩ := Reader.bind_eq_ok.mp hr
    obtain ⟨rfl, rfl⟩ := Reader.pure_eq_ok.mp hr
    obtain ⟨length, bytes_eq⟩ := ih has
    refine ⟨congrArg (· + 1) length, ?_⟩
    rw [List.flatMap_cons, List.append_assoc, bytes_eq]
    exact h.write_of_read ha

theorem replicate_write (h : layout.Faithful normal) (as : List α) (rest : List UInt8) :
    layout.read.replicate as.length (as.flatMap layout.write ++ rest) =
      (.ok (as.map normal), rest) := by
  induction as with
  | nil => rfl
  | cons a as ih =>
    rw [List.flatMap_cons, List.append_assoc]
    refine (Reader.bind_of_ok (h.read_write a _) _).trans ?_
    exact (Reader.bind_of_ok ih _).trans rfl

theorem counted (h : layout.Faithful normal) :
    layout.counted.Faithful fun as => (as.take 255).map normal where
  write_of_read {bytes rest as} hr := by
    obtain ⟨count, mid, hc, hr⟩ := Reader.bind_eq_ok.mp hr
    obtain ⟨length, bytes_eq⟩ := h.write_of_replicate hr
    have small := count.toNat_lt
    have all : as.take 255 = as := List.take_of_length_le (by omega)
    have front : UInt8.ofNat as.length = count := by rw [length, UInt8.ofNat_toNat]
    change (UInt8.ofNat (as.take 255).length :: (as.take 255).flatMap layout.write) ++ rest = bytes
    rw [all, front, List.cons_append, bytes_eq]
    exact u8_exact.write_of_read hc
  read_write as rest := by
    have small : (UInt8.ofNat (as.take 255).length).toNat = (as.take 255).length :=
      UInt8.toNat_ofNat_of_lt' (by simp [UInt8.size])
    refine (Reader.bind_of_ok (u8_exact.read_write _ _) _).trans ?_
    rw [small]
    exact h.replicate_write (as.take 255) rest

theorem replicate (h : layout.Faithful normal) (n : Nat) (fill : α) :
    (layout.replicate n fill).Faithful (Vector.map normal) where
  write_of_read {bytes rest v} hr := by
    obtain ⟨as, mid, has, hr⟩ := Reader.bind_eq_ok.mp hr
    obtain ⟨rfl, rfl⟩ := Reader.pure_eq_ok.mp hr
    obtain ⟨length, bytes_eq⟩ := h.write_of_replicate has
    have same : (Vector.ofFn fun i : Fin n => as.getD i fill).toList = as := by
      refine List.ext_getElem (by simp [length]) fun i hi hi' => ?_
      simp [List.getElem?_eq_getElem hi']
    change (Vector.ofFn _).toList.flatMap layout.write ++ mid = bytes
    rw [same]
    exact bytes_eq
  read_write v rest := by
    have row := h.replicate_write v.toList rest
    rw [Vector.length_toList] at row
    refine (Reader.bind_of_ok row _).trans ?_
    have same : (Vector.ofFn fun i : Fin n => (v.toList.map normal).getD i fill) =
        v.map normal := by
      ext i hi
      simp
    rw [same]
    rfl

theorem bytes_eq_ok {count : Nat} {input rest bs : List UInt8} :
    Reader.bytes count input = (.ok bs, rest) ↔ bs.length = count ∧ bs ++ rest = input := by
  unfold Reader.bytes
  split
  · next short =>
    simp only [Prod.mk.injEq, reduceCtorEq, false_and, false_iff]
    rintro ⟨rfl, rfl⟩
    rw [List.length_append] at short
    omega
  · next long =>
    constructor
    · intro h
      cases h
      exact ⟨by simp; omega, List.take_append_drop ..⟩
    · rintro ⟨rfl, rfl⟩
      simp

theorem limited (field : String) {limit : Nat} (small : limit ≤ 255) :
    (Layout.limited field limit).Faithful (List.take limit) where
  write_of_read {bytes rest bs} hr := by
    obtain ⟨count, mid, hc, hr⟩ := Reader.bind_eq_ok.mp hr
    split at hr
    · cases hr
    next fits =>
    obtain ⟨length, rfl⟩ := bytes_eq_ok.mp hr
    have all : bs.take limit = bs := List.take_of_length_le (by omega)
    have front : UInt8.ofNat bs.length = count := by rw [length, UInt8.ofNat_toNat]
    change (UInt8.ofNat (bs.take limit).length :: bs.take limit) ++ rest = bytes
    rw [all, front]
    exact u8_exact.write_of_read hc
  read_write bs rest := by
    have count : (UInt8.ofNat (bs.take limit).length).toNat = (bs.take limit).length :=
      UInt8.toNat_ofNat_of_lt' (by simp [UInt8.size]; omega)
    have fits : ¬ limit < (bs.take limit).length := by simp
    refine (Reader.bind_of_ok (u8_exact.read_write _ _) _).trans ?_
    rw [count, if_neg fits]
    exact bytes_eq_ok.mpr ⟨rfl, rfl⟩

end Faithful

theorem i16_exact : i16.Exact :=
  (u16_exact.as fun _ => rfl).congr fun _ => rfl

theorem single_exact : single.Exact := (u32_exact.as fun _ => rfl).congr fun _ => rfl

theorem vec2_exact : vec2.Exact :=
  ((single_exact.both single_exact).as fun _ => rfl).congr fun _ => rfl

theorem vec3_exact : vec3.Exact :=
  ((single_exact.both (single_exact.both single_exact)).as fun _ => rfl).congr fun _ => rfl

theorem id_exact : Layout.id.Exact := (u32_exact.as fun _ => rfl).congr fun _ => rfl

theorem optionalId_faithful : optionalId.Faithful (Option.filter ElementId.isValid) := by
  refine (id_exact.as fun i => ?_).congr fun o => ?_
  · by_cases h : i = .invalid <;> simp [h]
  · cases o with
    | none => rfl
    | some i => by_cases h : i = .invalid <;> simp [h, ElementId.isValid, Option.filter]

theorem readAll_eq_ok {layout : Layout α} {payload : List UInt8} {a : α} :
    layout.readAll payload = .ok a ↔ layout.read payload = (.ok a, []) := by
  unfold readAll
  constructor
  · intro h
    obtain ⟨b, mid, hb, hr⟩ := Reader.bind_eq_ok.mp (Prod.ext h rfl)
    obtain ⟨_, last, hf, hr⟩ := Reader.bind_eq_ok.mp hr
    obtain ⟨rfl, _⟩ := Reader.pure_eq_ok.mp hr
    cases mid with
    | nil => exact hb
    | cons c mid => cases hf
  · intro h
    rw [Reader.bind_of_ok h]
    rfl

end Layout
end SharedWorld.Wire
