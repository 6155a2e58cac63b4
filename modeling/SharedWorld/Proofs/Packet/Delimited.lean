import SharedWorld.Packet.Command
import SharedWorld.Packet.Vehicle
import SharedWorld.Proofs.Wire.Delimited

/-! No payload of a packet is the front of another. A payload that is read is told from what is left of
it after a cut, where bytes are missing, and from itself with more behind it, which is left over. -/
namespace SharedWorld

open Wire Wire.Layout

namespace Layout

theorem weapon_delimited : weapon.Delimited :=
  (u8_delimited.both <| u8_delimited.both <| u16_delimited.both u16_delimited).as _ _

theorem hit_delimited : hit.Delimited :=
  (optionalId_delimited.both <| u8_delimited.both u8_delimited).as _ _

theorem playerSync_delimited : playerSync.Delimited :=
  (id_delimited.both <| u16_delimited.both <| (u16_delimited.accept _ _).both <|
    vec3_delimited.both <| single_delimited.both <| vec3_delimited.both <| single_delimited.both <|
    single_delimited.both <| optionalId_delimited.both <| weapon_delimited.both <|
    vec3_delimited.both <| vec3_delimited.both <| vec3_delimited.both <| vec3_delimited.both <|
    single_delimited.both <| hit_delimited.optional "damage changed").as _ _

theorem keySync_delimited : keySync.Delimited :=
  (id_delimited.both <| u32_delimited.both <| i16_delimited.both <| i16_delimited.both <|
    (vec3_delimited.both vec3_delimited).optional "aiming").as _ _

theorem camera_delimited : camera.Delimited := by
  refine u8_delimited.bind fun mode => ?_
  split
  · exact (vec3_delimited.both vec3_delimited).bind fun _ => .pure _
  · split
    · exact optionalId_delimited.bind fun _ => .pure _
    · exact .fail _

theorem cameraSync_delimited : cameraSync.Delimited := (u8_delimited.both camera_delimited).as _ _

theorem returnSync_delimited : returnSync.Delimited :=
  (vec3_delimited.both <| vec3_delimited.optional "in vehicle").as _ _

theorem trailerLink_delimited : trailerLink.Delimited :=
  (id_delimited.both <| vec3_delimited.both vec3_delimited).as _ _

theorem damageReport_delimited : damageReport.Delimited :=
  ((limited_delimited "doors" 6).both <| (limited_delimited "wheels" 4).both <|
    (limited_delimited "panels" 7).both <| limited_delimited "lights" 4).as _ _

theorem vehicleSync_delimited : vehicleSync.Delimited :=
  (id_delimited.both <| u16_delimited.both <| id_delimited.both <| u8_delimited.both <|
    vec3_delimited.both <| vec3_delimited.both <| vec3_delimited.both <| vec3_delimited.both <|
    single_delimited.both <| trailerLink_delimited.counted.both <| single_delimited.both <|
    single_delimited.both <| vec3_delimited.both <| vec3_delimited.both <|
    (u8_delimited.optional "weapon slot").both <| (u16_delimited.optional "weapon ammo").both <|
    (u16_delimited.optional "weapon clip").both <| (vec2_delimited.optional "turret").both <|
    (u16_delimited.optional "adjustable property").both <| (u8_delimited.accept _ _).both <|
    ((single_delimited.replicate 6 .zero).optional "door ratios").both <|
    (hit_delimited.optional "player damage").both damageReport_delimited).as _ _

theorem command_delimited : Layout.command.Delimited := (text_delimited.both text_delimited).as _ _

end Layout

namespace Packet
variable {α : Type} [Packet α] {payload : List UInt8} {packet : α}

/-- A payload that is neither cut nor followed by anything: less of it lacks bytes, more of it has some
left over, and no other payload that is read begins with it. -/
structure Framed (α : Type) [Packet α] (payload : List UInt8) : Prop where
  cut : ∀ front, front <+: payload → front ≠ payload → ∃ needed remaining, remaining < needed ∧
    (read front : Except DecodeError α) = .error (.unexpectedEnd needed remaining)
  padded : ∀ extra, extra ≠ [] →
    (read (payload ++ extra) : Except DecodeError α) = .error (.trailingBytes extra.length)
  alone : ∀ other (packet : α), read other = .ok packet → payload <+: other → other = payload

theorem framed (h : (layout : Wire.Layout α).Delimited) (accepted : read payload = .ok packet) :
    Framed α payload where
  cut _ := h.readAll_cut accepted
  padded _ := h.readAll_append accepted
  alone other packet' accepted' inside := by
    obtain ⟨extra, rfl⟩ := inside
    cases extra with
    | nil => exact List.append_nil payload
    | cons b extra =>
      have left : read (payload ++ b :: extra) = .error _ := h.readAll_append accepted nofun
      cases left.symm.trans accepted'

/-- Every payload that is read as a packet of any kind stands alone: cut short it lacks bytes, and what is
put behind it is left over. -/
theorem read_framed (payload : List UInt8) :
    (∀ p : PlayerSync, read payload = .ok p → Framed PlayerSync payload) ∧
    (∀ p : VehicleSync, read payload = .ok p → Framed VehicleSync payload) ∧
    (∀ p : KeySync, read payload = .ok p → Framed KeySync payload) ∧
    (∀ p : CameraSync, read payload = .ok p → Framed CameraSync payload) ∧
    (∀ p : ReturnSync, read payload = .ok p → Framed ReturnSync payload) ∧
    (∀ p : Command, read payload = .ok p → Framed Command payload) :=
  ⟨fun _ => framed Layout.playerSync_delimited, fun _ => framed Layout.vehicleSync_delimited,
    fun _ => framed Layout.keySync_delimited, fun _ => framed Layout.cameraSync_delimited,
    fun _ => framed Layout.returnSync_delimited, fun _ => framed Layout.command_delimited⟩

theorem greeting_framed : (read [2, 0, 104, 105, 0, 0] : Except _ Command) = .ok { command := "hi" } ∧
    Framed Command [2, 0, 104, 105, 0, 0] := by
  have accepted : (read [2, 0, 104, 105, 0, 0] : Except _ Command) = .ok { command := "hi" } := by
    decide +kernel
  exact ⟨accepted, (read_framed _).2.2.2.2.2 _ accepted⟩

end Packet
end SharedWorld
