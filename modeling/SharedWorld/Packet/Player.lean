import SharedWorld.Element
import SharedWorld.Packet

/-! Packets about a player on foot, and the echo that a client gets of its own position. -/
namespace SharedWorld

open Wire

def PlayerFlags.toList (f : PlayerFlags) : List Bool :=
  [f.isInWater, f.isOnGround, f.hasJetpack, f.isDucked, f.wearsGoggles, f.hasContact,
    f.isChoking, f.akimboTargetUp, f.isOnFire, f.isSyncingVelocity, f.isStealthAiming]

/-- Eleven bits, the first flag in the lowest. -/
def PlayerFlags.toBits (f : PlayerFlags) : Nat :=
  f.toList.foldr (fun b n => b.toNat + 2 * n) 0

def PlayerFlags.ofBits (n : Nat) : PlayerFlags where
  isInWater := n.testBit 0
  isOnGround := n.testBit 1
  hasJetpack := n.testBit 2
  isDucked := n.testBit 3
  wearsGoggles := n.testBit 4
  hasContact := n.testBit 5
  isChoking := n.testBit 6
  akimboTargetUp := n.testBit 7
  isOnFire := n.testBit 8
  isSyncingVelocity := n.testBit 9
  isStealthAiming := n.testBit 10

def PlayerFlags.allNames : List String :=
  ["is_in_water", "is_on_ground", "has_jetpack", "is_ducked", "wears_goggles", "has_contact",
    "is_choking", "akimbo_target_up", "is_on_fire", "is_syncing_velocity", "is_stealth_aiming"]

def PlayerFlags.names (f : PlayerFlags) : List String :=
  ((allNames.zip f.toList).filter (·.2)).map (·.1)

def PlayerFlags.ofNames (names : List String) : PlayerFlags :=
  .ofBits (allNames.foldr (fun name n => (names.contains name).toNat + 2 * n) 0)

structure Hit where
  damager : Option ElementId
  weapon : UInt8
  bodyPart : UInt8
deriving DecidableEq

structure PlayerSync where
  -- the sender; the server puts its own word here before it passes the packet on
  player : ElementId := .invalid
  latency : UInt16 := 0
  flags : PlayerFlags := default
  position : Vec3 := .zero
  rotation : Single := .zero
  velocity : Vec3 := .zero
  health : Single := ⟨0x42c80000⟩
  armor : Single := .zero
  contact : Option ElementId := none
  weapon : Weapon := default
  aimOrigin : Vec3 := .zero
  aimDirection : Vec3 := .zero
  cameraPosition : Vec3 := .zero
  cameraDirection : Vec3 := .zero
  cameraRotation : Single := .zero
  hit : Option Hit := none
deriving DecidableEq

structure KeySync where
  player : ElementId := .invalid
  keys : UInt32 := 0
  leftStickX : Int16 := 0
  leftStickY : Int16 := 0
  aim : Option (Vec3 × Vec3) := none
deriving DecidableEq

/-- A client's word on what its camera shows. -/
structure CameraSync where
  timeContext : UInt8 := 0
  camera : Camera := .following none
deriving DecidableEq

/-- The transform that the server took over, sent back to its sender; rotation only in vehicles. -/
structure ReturnSync where
  position : Vec3 := .zero
  rotation : Option Vec3 := none
deriving DecidableEq

namespace Layout

def flags : Layout PlayerFlags :=
  Layout.u16.accept
    (fun n =>
      if n.toNat < 2048 then .ok (.ofBits n.toNat)
      else .error (.invalidValue "player flags" n.toNat))
    (fun f => .ofNat f.toBits)

def weapon : Layout Weapon :=
  (Layout.u8.both <| Layout.u8.both <| Layout.u16.both Layout.u16).as
    (fun (slot, kind, ammo, ammoInClip) => { slot, kind, ammo, ammoInClip })
    (fun w => (w.slot, w.kind, w.ammo, w.ammoInClip))

def hit : Layout Hit :=
  (Layout.optionalId.both <| Layout.u8.both Layout.u8).as
    (fun (damager, weapon, bodyPart) => { damager, weapon, bodyPart })
    (fun h => (h.damager, h.weapon, h.bodyPart))

open Layout in
def playerSync : Layout PlayerSync :=
  (Layout.id.both <| u16.both <| flags.both <| vec3.both <| single.both <| vec3.both <|
    single.both <| single.both <| optionalId.both <| weapon.both <| vec3.both <| vec3.both <|
    vec3.both <| vec3.both <| single.both <| optional "damage changed" hit).as
    (fun (player, latency, flags, position, rotation, velocity, health, armor, contact, weapon,
        aimOrigin, aimDirection, cameraPosition, cameraDirection, cameraRotation, hit) =>
      { player, latency, flags, position, rotation, velocity, health, armor, contact, weapon,
        aimOrigin, aimDirection, cameraPosition, cameraDirection, cameraRotation, hit })
    (fun p => (p.player, p.latency, p.flags, p.position, p.rotation, p.velocity, p.health, p.armor,
      p.contact, p.weapon, p.aimOrigin, p.aimDirection, p.cameraPosition, p.cameraDirection,
      p.cameraRotation, p.hit))

open Layout in
def keySync : Layout KeySync :=
  (Layout.id.both <| u32.both <| i16.both <| i16.both <| optional "aiming" (vec3.both vec3)).as
    (fun (player, keys, leftStickX, leftStickY, aim) =>
      { player, keys, leftStickX, leftStickY, aim })
    (fun k => (k.player, k.keys, k.leftStickX, k.leftStickY, k.aim))

/-- A mode byte, then a fixed view (mode 0) or the element shown (mode 1). -/
def camera : Layout Camera where
  read := do
    let mode ← Layout.u8.read
    if mode = 0 then
      let (position, lookAt) ← (Layout.vec3.both Layout.vec3).read
      return .fixed position lookAt
    else if mode = 1 then return .following (← Layout.optionalId.read)
    else .fail (.invalidValue "camera mode" mode.toNat)
  write
    | .fixed position lookAt => 0 :: (Layout.vec3.both Layout.vec3).write (position, lookAt)
    | .following target => 1 :: Layout.optionalId.write target

def cameraSync : Layout CameraSync :=
  (Layout.u8.both camera).as (fun (timeContext, camera) => { timeContext, camera })
    (fun c => (c.timeContext, c.camera))

def returnSync : Layout ReturnSync :=
  (Layout.vec3.both <| Layout.optional "in vehicle" Layout.vec3).as
    (fun (position, rotation) => { position, rotation })
    (fun r => (r.position, r.rotation))

end Layout

instance : Packet PlayerSync := ⟨.playerPureSync, .sequenced, .medium, Layout.playerSync⟩
instance : Packet KeySync := ⟨.playerKeySync, .sequenced, .medium, Layout.keySync⟩
instance : Packet CameraSync := ⟨.cameraSync, .reliable, .low, Layout.cameraSync⟩
instance : Packet ReturnSync := ⟨.returnSync, .sequenced, .medium, Layout.returnSync⟩

end SharedWorld
