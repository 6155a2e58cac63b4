import SharedWorld.Proofs.Realm.Trailers

/-! Packets of a player who is there are not refused. Whatever a packet names, and wherever the server
has the player sitting, everything that the handlers ask of the store is granted. -/
namespace SharedWorld

open Store

namespace Realm
variable {r : Realm} {sender : Client}

theorem canHold_seat {s : Store} {player : ElementId} (live : s.type? player = some .player) :
    s.CanHold .seat player := by
  obtain ⟨e, he, type⟩ := Option.map_eq_some_iff.mp live
  exact ⟨e, he, by simp [Tie.heldBy, type]⟩

theorem handlePlayer_granted (live : r.store.type? sender.player = some .player)
    (packet : PlayerSync) : (r.handlePlayer sender packet).1 = .ok () := by
  obtain ⟨t, written⟩ := updatePlayer_succeeds (canHold_seat live)
    (onFootState packet (r.store.resolve packet.contact)) (onFootTransform packet)
  have told : (r.tellOnFoot sender packet).store = r.store := rfl
  rw [handlePlayer_eq]
  unfold walkOn
  rw [told, written]

theorem handleCamera_granted (live : r.store.type? sender.player = some .player)
    (packet : CameraSync) : (r.handleCamera sender packet).1 = .ok () := by
  unfold handleCamera
  dsimp only
  split
  · next refused =>
    obtain ⟨t, written⟩ := updatePlayer_succeeds (canHold_seat live) _ _
    cases refused.symm.trans written
  · rfl

theorem handleCommand_granted (r : Realm) (sender : Client) (packet : SharedWorld.Command) :
    (r.handleCommand sender packet).1 = .ok () := by
  unfold handleCommand
  dsimp only
  split <;> rfl

theorem handleVehicle_of_idle (live : r.store.type? sender.player = some .player)
    (idle : ∀ v, ¬ r.store.Drives sender.player v) (packet : VehicleSync) :
    (r.handleVehicle sender packet).1 = .ok () := by
  rw [(handleVehicle_steers (canHold_seat live) packet).1]
  unfold steer
  cases seat : r.seat sender with
  | none => rfl
  | some v =>
    have other : ((r.seated sender packet).vehicle v).toOption.bind (·.driver) ≠
        some sender.player := fun wheel => idle v ((seated_drives r sender packet v).mp ⟨seat, wheel⟩)
    dsimp only
    rw [reportHit_store, withStore_store, if_pos other]

theorem handleVehicle_granted (ok : r.store.Linked) (free : r.store.Untangled)
    (live : r.store.type? sender.player = some .player) (packet : VehicleSync) :
    (r.handleVehicle sender packet).1 = .ok () := by
  by_cases drives : ∃ v, r.store.Drives sender.player v
  · obtain ⟨v, drives⟩ := drives
    by_cases bare : packet.trailers = []
    · exact (handleVehicle_unhitches ok drives packet bare).1
    · obtain ⟨_, _, granted, _⟩ := handleVehicle_hauls ok free drives packet bare
      exact granted
  · exact handleVehicle_of_idle live (not_exists.mp drives) packet

theorem takeAs_granted {α : Type} [Packet α]
    {handle : Realm → Client → α → Except WorldError Unit × Realm} {payload : List UInt8} {packet : α}
    (read : Packet.read payload = .ok packet) (granted : (handle r sender packet).1 = .ok ()) :
    (takeAs handle r sender payload).1 = .ok () := by
  unfold takeAs
  rw [read]
  dsimp only
  split
  · rfl
  · next refused =>
    rw [refused] at granted
    cases granted

/-- A payload is taken in if the packets read off it are granted. -/
theorem take_granted {kind : PacketKind} {α : Type} [Packet α]
    {handle : Realm → Client → α → Except WorldError Unit × Realm} {payload : List UInt8} {packet : α}
    (handler : sender.connected → r.take kind sender payload = takeAs handle r sender payload)
    (read : Packet.read payload = .ok packet) (granted : (handle r sender packet).1 = .ok ()) :
    (r.take kind sender payload).1 = .ok () := by
  by_cases connected : sender.connected
  · rw [handler connected]
    exact takeAs_granted read granted
  · unfold take
    rw [if_pos connected]

/-- Whatever has happened to the realm, every payload of a live player that can be read as one of the
packets with a handler is taken over: the handler of its kind refuses none. -/
theorem run_granted (cellSize : Single) (ids : IdSource) (root : ElementId) (ops : List Op)
    (sender : Client)
    (live : ((fresh cellSize ids root).run ops).store.type? sender.player = some .player)
    (payload : List UInt8) :
    let r := (fresh cellSize ids root).run ops
    (∀ p : PlayerSync, Packet.read payload = .ok p → (r.handlePlayer sender p).1 = .ok () ∧
      (r.take .playerPureSync sender payload).1 = .ok ()) ∧
    (∀ p : VehicleSync, Packet.read payload = .ok p → (r.handleVehicle sender p).1 = .ok () ∧
      (r.take .vehiclePureSync sender payload).1 = .ok ()) ∧
    (∀ p : KeySync, Packet.read payload = .ok p → (r.handleKeys sender p).1 = .ok () ∧
      (r.take .playerKeySync sender payload).1 = .ok ()) ∧
    (∀ p : CameraSync, Packet.read payload = .ok p → (r.handleCamera sender p).1 = .ok () ∧
      (r.take .cameraSync sender payload).1 = .ok ()) ∧
    (∀ p : SharedWorld.Command, Packet.read payload = .ok p →
      (r.handleCommand sender p).1 = .ok () ∧ (r.take .command sender payload).1 = .ok ()) := by
  intro r
  have ok : r.store.Linked := run_linked cellSize ids root ops
  have free : r.store.Untangled := run_untangled cellSize ids root ops
  refine ⟨fun p read => ?_, fun p read => ?_, fun p read => ?_, fun p read => ?_, fun p read => ?_⟩
  · have granted := handlePlayer_granted live p
    exact ⟨granted, take_granted (fun on => if_neg (not_not.mpr on)) read granted⟩
  · have granted := handleVehicle_granted ok free live p
    exact ⟨granted, take_granted (fun on => if_neg (not_not.mpr on)) read granted⟩
  · have granted : (r.handleKeys sender p).1 = .ok () := rfl
    exact ⟨granted, take_granted (fun on => if_neg (not_not.mpr on)) read granted⟩
  · have granted := handleCamera_granted live p
    exact ⟨granted, take_granted (fun on => if_neg (not_not.mpr on)) read granted⟩
  · have granted := handleCommand_granted r sender p
    exact ⟨granted, take_granted (fun on => if_neg (not_not.mpr on)) read granted⟩

theorem roadside_granted :
    let r := (fresh Grid.defaultCellSize (.counter 1) ⟨0⟩).run roadside
    let driver : Client := { endpoint := ⟨1⟩, player := ⟨2⟩ }
    r.store.type? driver.player = some .player ∧
      (Packet.read (Packet.write stutter) : Except _ VehicleSync) = .ok stutter ∧
      (r.handleVehicle driver stutter).1 = .ok () ∧
      (r.take .vehiclePureSync driver (Packet.write stutter)).1 = .ok () := by
  intro r driver
  have live : r.store.type? driver.player = some .player := by decide +kernel
  have read : (Packet.read (Packet.write stutter) : Except _ VehicleSync) = .ok stutter := by
    decide +kernel
  obtain ⟨_, vehicle, _⟩ := run_granted Grid.defaultCellSize (.counter 1) ⟨0⟩ roadside driver live
    (Packet.write stutter)
  exact ⟨live, read, vehicle stutter read⟩

end Realm
end SharedWorld
