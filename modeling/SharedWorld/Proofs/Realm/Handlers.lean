import SharedWorld.Proofs.Store.Vehicles
import SharedWorld.Realm.Intake

/-! The two halves of a handler. First the packet is confirmed and passed on; then it is taken over,
and that half neither looks at who is connected and what goes out nor changes any of it. -/
namespace SharedWorld.Realm
variable {r : Realm} {sender : Client}

/-- Something that is done whoever is connected and whatever goes out, and leaves both alone. -/
def Secluded (deed : Realm → Except WorldError Unit × Realm) : Prop :=
  ∀ world clients outbox, deed ⟨world, clients, outbox⟩ =
    ((deed ⟨world, {}, {}⟩).1, ⟨(deed ⟨world, {}, {}⟩).2.world, clients, outbox⟩)

namespace Secluded
variable {deed other : Realm → Except WorldError Unit × Realm}

theorem answer (h : Secluded deed) {r r' : Realm} (same : r'.world = r.world) :
    (deed r').1 = (deed r).1 ∧ (deed r').2.world = (deed r).2.world := by
  rw [h r.world r.clients r.outbox, h r'.world r'.clients r'.outbox, same]
  exact ⟨rfl, rfl⟩

theorem clients (h : Secluded deed) (r : Realm) : (deed r).2.clients = r.clients := by
  rw [h r.world r.clients r.outbox]

theorem outbox (h : Secluded deed) (r : Realm) : (deed r).2.outbox = r.outbox := by
  rw [h r.world r.clients r.outbox]

theorem done : Secluded fun r => (.ok (), r) := fun _ _ _ => rfl

theorem choice {p : World → Prop} [DecidablePred p] (h : Secluded deed) (h' : Secluded other) :
    Secluded fun r => if p r.world then deed r else other r := by
  intro world clients outbox
  by_cases hp : p world
  · simpa only [if_pos hp] using h world clients outbox
  · simpa only [if_neg hp] using h' world clients outbox

theorem attempt {f : World → Except WorldError Store}
    {next : Store → Realm → Except WorldError Unit × Realm} (h : ∀ s, Secluded (next s)) :
    Secluded fun r => match f r.world with
      | .error e => (.error e, r)
      | .ok s => next s r := by
  intro world clients outbox
  dsimp only
  cases f world with
  | error e => rfl
  | ok s => exact h s world clients outbox

theorem withHit (h : Secluded deed) (s : Store) (player : ElementId) (hit : Option Hit) :
    Secluded fun r => deed ((r.withStore s).reportHit player hit) := by
  intro world clients outbox
  cases hit <;> exact h _ clients outbox

theorem withStore (h : Secluded deed) (s : Store) : Secluded fun r => deed (r.withStore s) :=
  h.withHit s .invalid none

end Secluded

def walkOn (sender : Client) (packet : PlayerSync) (r : Realm) : Except WorldError Unit × Realm :=
  match r.store.updatePlayer sender.player (onFootState packet (r.store.resolve packet.contact))
      (onFootTransform packet) with
  | .error e => (.error e, r)
  | .ok store =>
    (.ok (), (r.withStore (store.propagate sender.player).2).reportHit sender.player packet.hit)

theorem walkOn_secluded (sender : Client) (packet : PlayerSync) : Secluded (walkOn sender packet) :=
  .attempt (f := fun w => w.store.updatePlayer sender.player
      (onFootState packet (w.store.resolve packet.contact)) (onFootTransform packet))
    fun s => Secluded.done.withHit (s.propagate sender.player).2 sender.player packet.hit

def tellOnFoot (r : Realm) (sender : Client) (packet : PlayerSync) : Realm :=
  (r.echo sender { position := packet.position }).relay sender
    { packet with player := sender.player, latency := 0 }

theorem handlePlayer_eq (r : Realm) (sender : Client) (packet : PlayerSync) :
    r.handlePlayer sender packet = walkOn sender packet (r.tellOnFoot sender packet) := rfl

def shownCamera (s : Store) (packet : CameraSync) : Camera :=
  match packet.camera with
  | .fixed position lookAt => .fixed position lookAt
  | .following target => .following (s.resolve target)

theorem handleCamera_secluded (sender : Client) (packet : CameraSync) :
    Secluded fun r => r.handleCamera sender packet :=
  .attempt (f := fun w => w.store.updatePlayer sender.player
      ({ · with camera := shownCamera w.store packet }) (fun e => e))
    fun s => Secluded.done.withStore s

theorem handleCommand_secluded (sender : Client) (packet : SharedWorld.Command) :
    Secluded fun r => r.handleCommand sender packet := by
  intro world clients outbox
  unfold handleCommand
  dsimp only
  split <;> rfl

/-- What the packet of a player who sits in `vehicle` comes to if the player drives it. -/
def steer (sender : Client) (vehicle : Option ElementId) (packet : VehicleSync) (r : Realm) :
    Except WorldError Unit × Realm :=
  match vehicle with
  | none => (.ok (), r)
  | some vehicle =>
    if (r.store.vehicle vehicle).toOption.bind (·.driver) ≠ some sender.player then (.ok (), r)
    else
      match drive r.store vehicle packet with
      | .error e => (.error e, r)
      | .ok store => (.ok (), r.withStore store)

/-- What the packet of a player who sits in `vehicle` comes to once it was passed on. -/
def rideOn (sender : Client) (vehicle : Option ElementId) (packet : VehicleSync) (r : Realm) :
    Except WorldError Unit × Realm :=
  match r.store.updatePlayer sender.player (seatedState packet) (seatedTransform packet) with
  | .error e => (.error e, r)
  | .ok store =>
    steer sender vehicle packet ((r.withStore store).reportHit sender.player packet.hit)

theorem steer_secluded (sender : Client) (vehicle : Option ElementId) (packet : VehicleSync) :
    Secluded (steer sender vehicle packet) := by
  cases vehicle with
  | none => exact Secluded.done
  | some vehicle =>
    refine .choice (p := fun w =>
      (w.store.vehicle vehicle).toOption.bind (·.driver) ≠ some sender.player) Secluded.done ?_
    exact .attempt (f := fun w => drive w.store vehicle packet) fun s => Secluded.done.withStore s

theorem rideOn_secluded (sender : Client) (vehicle : Option ElementId) (packet : VehicleSync) :
    Secluded (rideOn sender vehicle packet) :=
  .attempt (f := fun w => w.store.updatePlayer sender.player (seatedState packet)
      (seatedTransform packet))
    fun s => (steer_secluded sender vehicle packet).withHit s sender.player packet.hit

def seat (r : Realm) (sender : Client) : Option ElementId :=
  (r.store.find? sender.player).bind fun e => e.player?.bind (·.vehicle)

/-- A packet in a vehicle as the others get it. -/
def stamped (r : Realm) (sender : Client) (packet : VehicleSync) : VehicleSync :=
  { packet with
    player := sender.player
    latency := sender.wireLatency
    damage := knownDamage r.store (r.seat sender) }

def tellInVehicle (r : Realm) (sender : Client) (packet : VehicleSync) : Realm :=
  (r.echo sender { position := packet.position, rotation := some packet.rotation }).relay sender
    (r.stamped sender packet)

theorem handleVehicle_absent (gone : r.store.find? sender.player = none) (packet : VehicleSync) :
    r.handleVehicle sender packet = (.error (.notFound sender.player), r) := by
  unfold handleVehicle
  simp only [gone]

theorem handleVehicle_eq (live : r.store.contains sender.player) (packet : VehicleSync) :
    r.handleVehicle sender packet =
      rideOn sender (r.seat sender) packet (r.tellInVehicle sender packet) := by
  obtain ⟨e, he⟩ := Store.contains_iff.mp live
  have seat : r.seat sender = e.player?.bind (·.vehicle) := by rw [Realm.seat, he]; rfl
  unfold handleVehicle tellInVehicle stamped
  simp only [he, seat]
  rfl

end SharedWorld.Realm
