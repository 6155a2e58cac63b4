import SharedWorld.Proofs.Realm.Handlers

/-! What a client says about who it is. Who sent a packet, how late it is, and which vehicle and seat
it was sent from, is for the server to know; what a packet says of it decides nothing. -/
namespace SharedWorld.Realm
variable {r : Realm} {sender : Client}

structure Alike (x y : Except WorldError Unit × Realm) : Prop where
  answer : x.1 = y.1
  world : x.2.world = y.2.world
  clients : x.2.clients = y.2.clients

/-- Two outcomes that are alike, of which one came with one last packet and one with the other. -/
structure AlikeBut {α : Type} [Packet α] (one other : α)
    (x y : Except WorldError Unit × Realm) : Prop extends Alike x y where
  outbox : ∃ before listed, x.2.outbox = Outbox.send before listed one ∧
    y.2.outbox = Outbox.send before listed other

theorem Secluded.alike {deed : Realm → Except WorldError Unit × Realm} (h : Secluded deed)
    {r r' : Realm} (world : r.world = r'.world) (clients : r.clients = r'.clients) :
    Alike (deed r) (deed r') where
  answer := (h.answer world).1
  world := (h.answer world).2
  clients := by rw [h.clients, h.clients, clients]

theorem rideOn_forged (vehicle : Option ElementId) (p : VehicleSync) (player : ElementId)
    (latency : UInt16) (named : ElementId) (seat : UInt8) (damage : DamageReport) :
    rideOn sender vehicle { p with player, latency, vehicle := named, seat, damage } =
      rideOn sender vehicle p := rfl

theorem handleVehicle_forged (r : Realm) (sender : Client) (p : VehicleSync) (player : ElementId)
    (latency : UInt16) (vehicle : ElementId) (seat : UInt8) (damage : DamageReport) :
    ∃ told : VehicleSync,
      AlikeBut { told with vehicle := p.vehicle, seat := p.seat } { told with vehicle, seat }
        (r.handleVehicle sender p)
        (r.handleVehicle sender { p with player, latency, vehicle, seat, damage }) := by
  refine ⟨r.stamped sender p, ?_⟩
  by_cases live : r.store.contains sender.player
  · rw [handleVehicle_eq live, handleVehicle_eq live,
      rideOn_forged _ p player latency vehicle seat damage]
    have secluded := rideOn_secluded sender (r.seat sender) p
    have alike : Alike (rideOn sender (r.seat sender) p (r.tellInVehicle sender p))
        (rideOn sender (r.seat sender) p
          (r.tellInVehicle sender { p with player, latency, vehicle, seat, damage })) :=
      secluded.alike rfl rfl
    refine ⟨alike, (r.echo sender { position := p.position, rotation := some p.rotation }).outbox,
      r.clients.others sender.endpoint, ?_, ?_⟩
    · rw [secluded.outbox]
      rfl
    · rw [secluded.outbox]
      rfl
  · have gone : r.store.find? sender.player = none := by
      simpa [Store.contains_iff, Option.eq_none_iff_forall_ne_some] using live
    rw [handleVehicle_absent gone, handleVehicle_absent gone]
    exact { answer := rfl, world := rfl, clients := rfl, outbox := ⟨r.outbox, [], rfl, rfl⟩ }

/-- Two packets that differ only in what they say about their sender come to the same. What is
passed on is the same as well, but for the vehicle and the seat that a packet in a vehicle names. -/
theorem handle_forged (r : Realm) (sender : Client) :
    (∀ (p : VehicleSync) player latency vehicle seat damage, ∃ told : VehicleSync,
      AlikeBut { told with vehicle := p.vehicle, seat := p.seat } { told with vehicle, seat }
        (r.handleVehicle sender p)
        (r.handleVehicle sender { p with player, latency, vehicle, seat, damage })) ∧
    (∀ (p : PlayerSync) player latency,
      r.handlePlayer sender { p with player, latency } = r.handlePlayer sender p) ∧
    ∀ (p : KeySync) player, r.handleKeys sender { p with player } = r.handleKeys sender p :=
  ⟨handleVehicle_forged r sender, fun _ _ _ => rfl, fun _ _ => rfl⟩

end SharedWorld.Realm
