import SharedWorld.Packet.Command
import SharedWorld.Packet.Vehicle
import SharedWorld.Proofs.Wire.Cut

/-! Packets that are written and read. A packet comes back in its normal form: what a format has no
room for is cut off, and the invalid identifier names nobody. A payload is read only if it is what the
writer makes of the packet, and that packet is in normal form. -/
namespace SharedWorld

open Wire

theorem testBit_foldr (bs : List Bool) (i : Nat) :
    (bs.foldr (fun (b : Bool) (n : Nat) => b.toNat + 2 * n) 0).testBit i = bs.getD i false := by
  induction bs generalizing i with
  | nil => simp
  | cons b bs ih =>
    rw [List.foldr_cons]
    cases i with
    | zero => cases b <;> simp [Nat.testBit_zero]
    | succ i =>
      have low : b.toNat ≤ 1 := Bool.toNat_le b
      rw [Nat.testBit_succ, List.getD_cons_succ, ← ih]
      congr 1
      omega

theorem foldr_lt (bs : List Bool) :
    bs.foldr (fun (b : Bool) (n : Nat) => b.toNat + 2 * n) 0 < Nat.pow 2 bs.length := by
  induction bs with
  | nil => decide
  | cons b bs ih =>
    have low : b.toNat ≤ 1 := Bool.toNat_le b
    rw [List.foldr_cons]
    change _ < Nat.pow 2 bs.length * 2
    omega

namespace PlayerFlags

theorem ofBits_toBits (f : PlayerFlags) : ofBits f.toBits = f := by
  unfold ofBits toBits
  simp only [testBit_foldr]
  rfl

theorem toBits_ofBits {n : Nat} (h : n < 2048) : (ofBits n).toBits = n := by
  simp only [toBits, toList, ofBits, List.foldr_cons, List.foldr_nil, Nat.toNat_testBit]
  omega

theorem toBits_lt (f : PlayerFlags) : f.toBits < 2048 := by
  have bound : f.toBits < Nat.pow 2 11 := foldr_lt f.toList
  exact bound

end PlayerFlags

theorem Layout.flags_exact : Layout.flags.Exact := by
  refine Wire.Layout.u16_exact.accept (fun {n f} h => ?_) fun f => ?_
  · split at h
    · next small =>
      cases h
      rw [PlayerFlags.toBits_ofBits small, UInt16.ofNat_toNat]
    · cases h
  · have small := f.toBits_lt
    have whole : (UInt16.ofNat f.toBits).toNat = f.toBits :=
      UInt16.toNat_ofNat_of_lt' (by simp [UInt16.size]; omega)
    rw [whole, if_pos small, PlayerFlags.ofBits_toBits]

theorem Layout.vehicleFlags_exact : Layout.vehicleFlags.Exact := by
  refine Wire.Layout.u8_exact.accept (fun {n b} h => ?_) fun b => ?_
  · split at h
    · next small =>
      cases h
      refine Wire.Layout.byte_eq ?_
      simp only [Nat.toNat_testBit]
      omega
    · cases h
  · obtain ⟨water, goggles, siren⟩ := b
    cases water <;> cases goggles <;> cases siren <;> rfl

/-- What becomes of packets of a kind that are written and read, and which of them stay as they
are. -/
class HasNormalForm (α : Type) [Packet α] where
  normal : α → α
  IsNormal : α → Prop
  normal_eq_iff : ∀ a, normal a = a ↔ IsNormal a
  faithful : (Packet.layout : Wire.Layout α).Faithful normal

namespace Packet
variable {α : Type} [Packet α] [HasNormalForm α]

theorem read_write (p : α) : read (write p) = .ok (HasNormalForm.normal p) := by
  have back := HasNormalForm.faithful.read_write p []
  rw [List.append_nil] at back
  exact Wire.Layout.readAll_eq_ok.mpr back

theorem read_eq_ok {payload : List UInt8} {p : α} :
    read payload = .ok p ↔ HasNormalForm.IsNormal p ∧ write p = payload := by
  rw [← HasNormalForm.normal_eq_iff]
  constructor
  · intro h
    have taken := HasNormalForm.faithful.write_of_read (Wire.Layout.readAll_eq_ok.mp h)
    rw [List.append_nil] at taken
    have written : write p = payload := taken
    have back := read_write p
    rw [written, h] at back
    exact ⟨(Except.ok.inj back).symm, written⟩
  · rintro ⟨normal, rfl⟩
    rw [read_write, normal]

theorem read_write_self_iff {p : α} : read (write p) = .ok p ↔ HasNormalForm.IsNormal p := by
  rw [read_write, Except.ok.injEq]
  exact HasNormalForm.normal_eq_iff p

end Packet

section Ids
variable {o : Option ElementId}

theorem filter_isValid_eq_iff : o.filter (·.isValid) = o ↔ o ≠ some .invalid := by
  cases o with
  | none => simp
  | some i => by_cases h : i = .invalid <;> simp [h, ElementId.isValid, Option.filter]

end Ids

namespace Hit

def normal (h : Hit) : Hit := { h with damager := h.damager.filter (·.isValid) }

def IsNormal (h : Hit) : Prop := h.damager ≠ some .invalid

theorem normal_eq_iff (h : Hit) : h.normal = h ↔ h.IsNormal := by
  rw [IsNormal, ← filter_isValid_eq_iff]
  obtain ⟨damager, weapon, bodyPart⟩ := h
  simp [normal]

theorem map_normal_eq_iff (o : Option Hit) : o.map normal = o ↔ ∀ h, o = some h → h.IsNormal := by
  cases o with
  | none => simp
  | some h => simp [normal_eq_iff]

end Hit

namespace Layout
open Wire.Layout

theorem hit_faithful : hit.Faithful Hit.normal :=
  ((optionalId_faithful.both (u8_exact.both u8_exact)).as fun _ => rfl).congr fun _ => rfl

theorem weapon_exact : weapon.Exact :=
  ((u8_exact.both (u8_exact.both (u16_exact.both u16_exact))).as fun _ => rfl).congr fun _ => rfl

end Layout

namespace PlayerSync

def normal (p : PlayerSync) : PlayerSync :=
  { p with contact := p.contact.filter (·.isValid), hit := p.hit.map Hit.normal }

def IsNormal (p : PlayerSync) : Prop :=
  p.contact ≠ some .invalid ∧ ∀ h, p.hit = some h → h.IsNormal

theorem normal_eq_iff (p : PlayerSync) : p.normal = p ↔ p.IsNormal := by
  rw [IsNormal, ← filter_isValid_eq_iff, ← Hit.map_normal_eq_iff]
  cases p
  simp [normal]

open Wire.Layout Layout in
theorem layout_faithful : Layout.playerSync.Faithful normal :=
  ((id_exact.both <| u16_exact.both <| flags_exact.both <| vec3_exact.both <| single_exact.both <|
    vec3_exact.both <| single_exact.both <| single_exact.both <| optionalId_faithful.both <|
    weapon_exact.both <| vec3_exact.both <| vec3_exact.both <| vec3_exact.both <|
    vec3_exact.both <| single_exact.both <| hit_faithful.optional "damage changed").as
      fun _ => rfl).congr fun _ => rfl

instance : HasNormalForm PlayerSync := ⟨normal, IsNormal, normal_eq_iff, layout_faithful⟩

end PlayerSync

namespace KeySync

open Wire.Layout in
theorem layout_exact : Layout.keySync.Exact :=
  ((id_exact.both <| u32_exact.both <| i16_exact.both <| i16_exact.both <|
    (vec3_exact.both vec3_exact).optional "aiming").as fun _ => rfl).congr fun k => by
      simp

instance : HasNormalForm KeySync :=
  ⟨fun k => k, fun _ => True, fun _ => iff_of_true rfl trivial, layout_exact⟩

end KeySync

namespace CameraSync

def normal (c : CameraSync) : CameraSync :=
  { c with camera := match c.camera with
      | .fixed position lookAt => .fixed position lookAt
      | .following target => .following (target.filter (·.isValid)) }

def IsNormal (c : CameraSync) : Prop := c.camera ≠ .following (some .invalid)

theorem normal_eq_iff (c : CameraSync) : c.normal = c ↔ c.IsNormal := by
  obtain ⟨timeContext, camera⟩ := c
  cases camera with
  | fixed position lookAt => simp [normal, IsNormal]
  | following target => simp [normal, IsNormal, filter_isValid_eq_iff]

open Wire.Layout in
theorem camera_faithful : Layout.camera.Faithful fun
    | .fixed position lookAt => .fixed position lookAt
    | .following target => .following (target.filter (·.isValid)) where
  write_of_read {bytes rest c} hr := by
    obtain ⟨mode, mid, hm, hr⟩ := Reader.bind_eq_ok.mp hr
    have front : mode :: mid = bytes := u8_exact.write_of_read hm
    split at hr
    · next fixed =>
      obtain ⟨view, last, hv, hr⟩ := Reader.bind_eq_ok.mp hr
      obtain ⟨rfl, rfl⟩ := Reader.pure_eq_ok.mp hr
      have view_eq := (vec3_exact.both vec3_exact).write_of_read hv
      rw [← front, fixed, ← view_eq]
      rfl
    · split at hr
      · next following =>
        obtain ⟨target, last, ht, hr⟩ := Reader.bind_eq_ok.mp hr
        obtain ⟨rfl, rfl⟩ := Reader.pure_eq_ok.mp hr
        have target_eq := optionalId_faithful.write_of_read ht
        rw [← front, following, ← target_eq]
        rfl
      · cases hr
  read_write c rest := by
    cases c with
    | fixed position lookAt =>
      refine (Reader.bind_of_ok (u8_exact.read_write 0 _) _).trans ?_
      exact (Reader.bind_of_ok ((vec3_exact.both vec3_exact).read_write _ rest) _).trans rfl
    | following target =>
      refine (Reader.bind_of_ok (u8_exact.read_write 1 _) _).trans ?_
      exact (Reader.bind_of_ok (optionalId_faithful.read_write target rest) _).trans rfl

theorem layout_faithful : Layout.cameraSync.Faithful normal :=
  ((Wire.Layout.u8_exact.both camera_faithful).as fun _ => rfl).congr fun _ => rfl

instance : HasNormalForm CameraSync := ⟨normal, IsNormal, normal_eq_iff, layout_faithful⟩

end CameraSync

namespace ReturnSync

open Wire.Layout in
theorem layout_exact : Layout.returnSync.Exact :=
  ((vec3_exact.both (vec3_exact.optional "in vehicle")).as fun _ => rfl).congr fun r => by simp

instance : HasNormalForm ReturnSync :=
  ⟨fun r => r, fun _ => True, fun _ => iff_of_true rfl trivial, layout_exact⟩

end ReturnSync

namespace DamageReport

def normal (d : DamageReport) : DamageReport :=
  ⟨d.doors.take 6, d.wheels.take 4, d.panels.take 7, d.lights.take 4⟩

def IsNormal (d : DamageReport) : Prop :=
  d.doors.length ≤ 6 ∧ d.wheels.length ≤ 4 ∧ d.panels.length ≤ 7 ∧ d.lights.length ≤ 4

theorem normal_eq_iff (d : DamageReport) : d.normal = d ↔ d.IsNormal := by
  obtain ⟨doors, wheels, panels, lights⟩ := d
  simp [normal, IsNormal]

open Wire.Layout in
theorem layout_faithful : Layout.damageReport.Faithful normal :=
  (((Faithful.limited "doors" (by decide)).both <| (Faithful.limited "wheels" (by decide)).both <|
    (Faithful.limited "panels" (by decide)).both (Faithful.limited "lights" (by decide))).as
      fun _ => rfl).congr fun _ => rfl

end DamageReport

namespace VehicleSync

def normal (p : VehicleSync) : VehicleSync :=
  { p with trailers := p.trailers.take 255, hit := p.hit.map Hit.normal, damage := p.damage.normal }

def IsNormal (p : VehicleSync) : Prop :=
  p.trailers.length ≤ 255 ∧ (∀ h, p.hit = some h → h.IsNormal) ∧ p.damage.IsNormal

theorem normal_eq_iff (p : VehicleSync) : p.normal = p ↔ p.IsNormal := by
  rw [IsNormal, ← Hit.map_normal_eq_iff, ← DamageReport.normal_eq_iff]
  cases p
  simp [normal]

open Wire.Layout in
theorem trailerLink_exact : Layout.trailerLink.Exact :=
  ((id_exact.both (vec3_exact.both vec3_exact)).as fun _ => rfl).congr fun _ => rfl

open Wire.Layout Layout in
theorem layout_faithful : Layout.vehicleSync.Faithful normal :=
  ((id_exact.both <| u16_exact.both <| id_exact.both <| u8_exact.both <| vec3_exact.both <|
    vec3_exact.both <| vec3_exact.both <| vec3_exact.both <| single_exact.both <|
    trailerLink_exact.counted.both <| single_exact.both <| single_exact.both <| vec3_exact.both <|
    vec3_exact.both <| (u8_exact.optional "weapon slot").both <|
    (u16_exact.optional "weapon ammo").both <| (u16_exact.optional "weapon clip").both <|
    (vec2_exact.optional "turret").both <| (u16_exact.optional "adjustable property").both <|
    vehicleFlags_exact.both <| ((single_exact.replicate 6 .zero).optional "door ratios").both <|
    (hit_faithful.optional "player damage").both DamageReport.layout_faithful).as
      fun _ => rfl).congr fun p => by simp [normal]

instance : HasNormalForm VehicleSync := ⟨normal, IsNormal, normal_eq_iff, layout_faithful⟩

end VehicleSync

namespace Command

def normal (c : Command) : Command := ⟨Text.truncate c.command, Text.truncate c.arguments⟩

def IsNormal (c : Command) : Prop :=
  c.command.utf8ByteSize ≤ 65535 ∧ c.arguments.utf8ByteSize ≤ 65535

theorem normal_eq_iff (c : Command) : c.normal = c ↔ c.IsNormal := by
  obtain ⟨command, arguments⟩ := c
  simp only [normal, Command.mk.injEq, Text.truncate_eq_iff]
  exact Iff.rfl

open Wire.Layout in
theorem layout_faithful : Layout.command.Faithful normal :=
  ((text_faithful.both text_faithful).as fun _ => rfl).congr fun _ => rfl

instance : HasNormalForm Command := ⟨normal, IsNormal, normal_eq_iff, layout_faithful⟩

theorem read_write_longest (c : Command) : ∃ kept : Command,
    Packet.read (Packet.write c) = .ok kept ∧
      Text.LongestWithin 65535 c.command kept.command ∧
      Text.LongestWithin 65535 c.arguments kept.arguments :=
  ⟨c.normal, Packet.read_write c, Text.truncate_longest c.command, Text.truncate_longest c.arguments⟩

end Command

namespace Packet

/-- A payload is read as a packet if and only if it is what the packet is written as, byte for byte,
and the packet is in normal form. So no packet has two payloads that are both accepted. -/
theorem payload_eq_write (payload : List UInt8) :
    (∀ p : PlayerSync, read payload = .ok p ↔ p.IsNormal ∧ write p = payload) ∧
    (∀ p : VehicleSync, read payload = .ok p ↔ p.IsNormal ∧ write p = payload) ∧
    (∀ p : KeySync, read payload = .ok p ↔ write p = payload) ∧
    (∀ p : CameraSync, read payload = .ok p ↔ p.IsNormal ∧ write p = payload) ∧
    (∀ p : ReturnSync, read payload = .ok p ↔ write p = payload) ∧
    (∀ p : Command, read payload = .ok p ↔ p.IsNormal ∧ write p = payload) :=
  ⟨fun _ => read_eq_ok, fun _ => read_eq_ok, fun _ => read_eq_ok.trans (and_iff_right trivial),
    fun _ => read_eq_ok, fun _ => read_eq_ok.trans (and_iff_right trivial), fun _ => read_eq_ok⟩

/-- Every packet that is written is read, and comes back in its normal form; it comes back as it was
if it was in normal form, and only then. Texts are cut to the longest run of whole characters of at
most 65535 bytes. -/
theorem read_back_normal :
    (∀ p : PlayerSync, read (write p) = .ok p.normal ∧ (read (write p) = .ok p ↔ p.IsNormal)) ∧
    (∀ p : VehicleSync, read (write p) = .ok p.normal ∧ (read (write p) = .ok p ↔ p.IsNormal)) ∧
    (∀ p : KeySync, read (write p) = .ok p) ∧
    (∀ p : CameraSync, read (write p) = .ok p.normal ∧ (read (write p) = .ok p ↔ p.IsNormal)) ∧
    (∀ p : ReturnSync, read (write p) = .ok p) ∧
    (∀ c : Command, (∃ kept : Command, read (write c) = .ok kept ∧
        Text.LongestWithin 65535 c.command kept.command ∧
        Text.LongestWithin 65535 c.arguments kept.arguments) ∧
      (read (write c) = .ok c ↔ c.IsNormal)) := by
  refine ⟨fun p => ?_, fun p => ?_, fun p => ?_, fun p => ?_, fun p => ?_, fun c => ?_⟩
  · exact ⟨read_write p, read_write_self_iff⟩
  · exact ⟨read_write p, read_write_self_iff⟩
  · exact read_write p
  · exact ⟨read_write p, read_write_self_iff⟩
  · exact read_write p
  · exact ⟨c.read_write_longest, read_write_self_iff⟩

end Packet

end SharedWorld
