import SharedWorld.Packet.Player

/-! The packet about a player inside a vehicle. -/
namespace SharedWorld

open Wire

/-- One link of a chain of trailers, counted outwards from the vehicle that tows. -/
structure TrailerLink where
  trailer : ElementId
  position : Vec3
  rotation : Vec3
deriving DecidableEq

/-- Damage as it travels; an empty list says nothing. -/
structure DamageReport where
  doors : List UInt8 := []
  wheels : List UInt8 := []
  panels : List UInt8 := []
  lights : List UInt8 := []
deriving DecidableEq

def DamageReport.ofDamage (d : Damage) : DamageReport :=
  ⟨d.doors.toList, d.wheels.toList, d.panels.toList, d.lights.toList⟩

structure VehicleSync where
  player : ElementId := .invalid
  latency : UInt16 := 0
  vehicle : ElementId := .invalid
  seat : UInt8 := 0
  position : Vec3 := .zero
  rotation : Vec3 := .zero
  velocity : Vec3 := .zero
  turnVelocity : Vec3 := .zero
  health : Single := ⟨0x447a0000⟩
  trailers : List TrailerLink := []
  playerHealth : Single := ⟨0x42c80000⟩
  playerArmor : Single := .zero
  aimOrigin : Vec3 := .zero
  aimDirection : Vec3 := .zero
  weaponSlot : Option UInt8 := none
  weaponAmmo : Option UInt16 := none
  weaponAmmoInClip : Option UInt16 := none
  turret : Option Vec2 := none
  adjustable : Option UInt16 := none
  isInWater : Bool := false
  wearsGoggles : Bool := false
  siren : Bool := false
  doorRatios : Option (Vector Single 6) := none
  hit : Option Hit := none
  -- the server puts its own word here before it passes the packet on
  damage : DamageReport := {}
deriving DecidableEq

namespace Layout

def trailerLink : Layout TrailerLink :=
  (Layout.id.both <| Layout.vec3.both Layout.vec3).as
    (fun (trailer, position, rotation) => { trailer, position, rotation })
    (fun t => (t.trailer, t.position, t.rotation))

def vehicleFlags : Layout (Bool × Bool × Bool) :=
  Layout.u8.accept
    (fun n =>
      if n.toNat < 8 then .ok (n.toNat.testBit 0, n.toNat.testBit 1, n.toNat.testBit 2)
      else .error (.invalidValue "vehicle flags" n.toNat))
    (fun (water, goggles, siren) => .ofNat (water.toNat + 2 * goggles.toNat + 4 * siren.toNat))

def damageReport : Layout DamageReport :=
  (Layout.limited "doors" 6 |>.both <| Layout.limited "wheels" 4 |>.both <|
    Layout.limited "panels" 7 |>.both <| Layout.limited "lights" 4).as
    (fun (doors, wheels, panels, lights) => { doors, wheels, panels, lights })
    (fun d => (d.doors, d.wheels, d.panels, d.lights))

open Layout in
def vehicleSync : Layout VehicleSync :=
  (Layout.id.both <| u16.both <| Layout.id.both <| u8.both <| vec3.both <| vec3.both <|
    vec3.both <| vec3.both <| single.both <| (counted trailerLink).both <| single.both <|
    single.both <| vec3.both <| vec3.both <| (optional "weapon slot" u8).both <|
    (optional "weapon ammo" u16).both <| (optional "weapon clip" u16).both <|
    (optional "turret" vec2).both <| (optional "adjustable property" u16).both <|
    vehicleFlags.both <| (optional "door ratios" (single.replicate 6 .zero)).both <|
    (optional "player damage" hit).both damageReport).as
    (fun (player, latency, vehicle, seat, position, rotation, velocity, turnVelocity, health,
        trailers, playerHealth, playerArmor, aimOrigin, aimDirection, weaponSlot, weaponAmmo,
        weaponAmmoInClip, turret, adjustable, (isInWater, wearsGoggles, siren), doorRatios, hit,
        damage) =>
      { player, latency, vehicle, seat, position, rotation, velocity, turnVelocity, health,
        trailers, playerHealth, playerArmor, aimOrigin, aimDirection, weaponSlot, weaponAmmo,
        weaponAmmoInClip, turret, adjustable, isInWater, wearsGoggles, siren, doorRatios, hit,
        damage })
    (fun p => (p.player, p.latency, p.vehicle, p.seat, p.position, p.rotation, p.velocity,
      p.turnVelocity, p.health, p.trailers, p.playerHealth, p.playerArmor, p.aimOrigin,
      p.aimDirection, p.weaponSlot, p.weaponAmmo, p.weaponAmmoInClip, p.turret, p.adjustable,
      (p.isInWater, p.wearsGoggles, p.siren), p.doorRatios, p.hit, p.damage))

end Layout

instance : Packet VehicleSync := ⟨.vehiclePureSync, .sequenced, .medium, Layout.vehicleSync⟩

end SharedWorld
