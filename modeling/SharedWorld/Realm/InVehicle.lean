import SharedWorld.Packet.Vehicle
import SharedWorld.Realm
import SharedWorld.VehicleModel

/-! Packets of a player inside a vehicle. Everybody speaks for itself; only the driver speaks for the
vehicle and for the trailers behind it. The vehicle is the one that the player sits in, whatever
the packet says. -/
namespace SharedWorld.Realm

def seatedState (packet : VehicleSync) (p : Player) : Player :=
  let slot := packet.weaponSlot.getD p.weapon.slot
  -- ammunition counts only if both numbers are there
  let weapon := match packet.weaponAmmo, packet.weaponAmmoInClip with
    | some ammo, some ammoInClip => { p.weapon with slot, ammo, ammoInClip }
    | _, _ => { p.weapon with slot }
  { p with
    health := packet.playerHealth
    armor := packet.playerArmor
    aimOrigin := packet.aimOrigin
    aimDirection := packet.aimDirection
    weapon
    flags := { p.flags with
      isInWater := packet.isInWater
      wearsGoggles := packet.wearsGoggles } }

def seatedTransform (packet : VehicleSync) (e : Element) : Element :=
  { e with position := packet.position, velocity := packet.velocity }

def drivenState (packet : VehicleSync) (v : Vehicle) : Vehicle :=
  { v with
    health := packet.health
    siren := packet.siren
    -- equipment that the model does not have is not changed
    turret := if VehicleModel.hasTurret v.model then packet.turret.getD v.turret else v.turret
    adjustable :=
      if VehicleModel.hasAdjustable v.model then packet.adjustable.getD v.adjustable
      else v.adjustable
    doorRatios :=
      if VehicleModel.hasDoors v.model then packet.doorRatios.getD v.doorRatios
      else v.doorRatios }

def drivenTransform (packet : VehicleSync) (e : Element) : Element :=
  { e with
    position := packet.position
    rotation := packet.rotation
    velocity := packet.velocity
    turnVelocity := packet.turnVelocity }

/-- Hitches each trailer behind the one before it and puts it where the packet says. The first link
that is no vehicle, or would close a ring, ends the chain. -/
def hitch (previous : ElementId) : List TrailerLink → Store → Except WorldError Store
  | [], s => .ok s
  | link :: rest, s =>
    if s.type? link.trailer ≠ some .vehicle then .ok s
    else
      match s.attachToTower link.trailer (some previous) with
      | .error (.cyclicTow ..) => .ok s
      | .error e => .error e
      | .ok (_, s) =>
        match s.update link.trailer
            ({ · with position := link.position, rotation := link.rotation }) with
        | .error e => .error e
        | .ok s => hitch link.trailer rest (s.propagate link.trailer).2

def syncTrailers (s : Store) (vehicle : ElementId) (links : List TrailerLink) :
    Except WorldError Store :=
  if links.isEmpty then (·.2) <$> s.detachTowed vehicle else hitch vehicle links s

def drive (s : Store) (vehicle : ElementId) (packet : VehicleSync) : Except WorldError Store := do
  let s ← s.updateVehicle vehicle (drivenState packet) (drivenTransform packet)
  syncTrailers (s.propagate vehicle).2 vehicle packet.trailers

def knownDamage (s : Store) (vehicle : Option ElementId) : DamageReport :=
  match vehicle.bind fun id => (s.vehicle id).toOption with
  | some v => .ofDamage v.damage
  | none => {}

def handleVehicle (r : Realm) (sender : Client) (packet : VehicleSync) :
    Except WorldError Unit × Realm :=
  let player := sender.player
  match r.store.find? player with
  | none => (.error (.notFound player), r)
  | some e =>
    let vehicle := e.player?.bind (·.vehicle)
    let r := r.echo sender { position := packet.position, rotation := some packet.rotation }
    let r := r.relay sender { packet with
      player
      latency := sender.wireLatency
      damage := knownDamage r.store vehicle }
    match r.store.updatePlayer player (seatedState packet) (seatedTransform packet) with
    | .error e => (.error e, r)
    | .ok store =>
      let r := (r.withStore store).reportHit player packet.hit
      match vehicle with
      | none => (.ok (), r)
      | some vehicle =>
        let driver := (r.store.vehicle vehicle).toOption.bind (·.driver)
        if driver ≠ some player then (.ok (), r)
        else
          match drive r.store vehicle packet with
          | .error e => (.error e, r)
          | .ok store => (.ok (), r.withStore store)

end SharedWorld.Realm
