import SharedWorld.Proofs.Dispatcher.Effects
import SharedWorld.Proofs.Realm.Frame
import SharedWorld.Proofs.Clients
import SharedWorld.Proofs.World.Visits
import SharedWorld.Server

/-! What goes on in a server without anybody coming or going. The workers write to elements, post
packets and tell of hits and commands; the periodic pass finds who crossed into or out of a shape;
others ask things of the world. -/
namespace SharedWorld
open Store

namespace Realm
variable {r u v : Realm} {sender : Client}

/-- From `r` to `u` elements were written to, and things were sent and told. Nobody registers, leaves
or begins to watch. -/
structure Discreet (r u : Realm) : Prop where
  clients : u.clients = r.clients
  dropped : u.outbox.dropped = r.outbox.dropped
  visits : u.world.visits = r.world.visits
  zones : u.world.zones = r.world.zones
  writes : Writes r.store u.store

namespace Discreet

theorem refl (r : Realm) : Discreet r r := ⟨rfl, rfl, rfl, rfl, .refl⟩

theorem trans (h : Discreet r u) (h' : Discreet u v) : Discreet r v where
  clients := h'.clients.trans h.clients
  dropped := h'.dropped.trans h.dropped
  visits := h'.visits.trans h.visits
  zones := h'.zones.trans h.zones
  writes := h.writes.trans h'.writes

theorem send {α : Type} [Packet α] (r : Realm) (destinations : List Endpoint) (packet : α) :
    Discreet r (r.send destinations packet) where
  clients := rfl
  dropped := by
    unfold Realm.send Outbox.send
    split <;> rfl
  visits := rfl
  zones := rfl
  writes := .refl

theorem publish (r : Realm) {e : WorldEvent} (other : e.visit? = none) :
    Discreet r (r.publish e) where
  clients := rfl
  dropped := rfl
  visits := by
    have told := World.publish_visits r.world e
    rw [other] at told
    exact told.trans (List.append_nil _)
  zones := rfl
  writes := .refl

theorem reportHit (r : Realm) (player : ElementId) (hit : Option Hit) :
    Discreet r (r.reportHit player hit) := by
  cases hit with
  | none => exact .refl r
  | some h => exact publish r rfl

theorem bare (h : Discreet r u) (bare : r.world.Bare) : u.world.Bare where
  zones := h.zones.trans bare.zones
  watchers id l hl := bare.watchers id l ((Writes.watchers h.writes id).symm.trans hl)

theorem withStore {t : Store} (writes : Writes r.store t) : Discreet r (r.withStore t) :=
  ⟨rfl, rfl, rfl, rfl, writes⟩

end Discreet

section Writes
variable {s t : Store}

theorem hitch_writes {previous : ElementId} {links : List TrailerLink}
    (h : hitch previous links s = .ok t) : Writes s t := by
  induction links generalizing previous s with
  | nil =>
    cases h
    exact .refl
  | cons link links ih =>
    rw [hitch_cons] at h
    split at h
    · cases h
    · cases h
      exact .refl
    · next hl =>
      obtain ⟨changed, pulled, placed, tow, move, rfl⟩ := hitchLink_moves hl
      have moved : Writes s placed :=
        (attachToTower_writes tow).trans (update_writes (link_tame link).type move)
      exact (moved.trans (propagate_writes placed link.trailer)).trans (ih h)

theorem drive_writes {vehicle : ElementId} {packet : VehicleSync}
    (h : drive s vehicle packet = .ok t) : Writes s t := by
  obtain ⟨driven, hw, h⟩ := bind_eq_ok.mp h
  have write : Writes s driven := update_writes (driven_tame packet).type (updateVehicle_update hw)
  refine (write.trans (propagate_writes driven vehicle)).trans ?_
  unfold syncTrailers at h
  split at h
  · obtain ⟨x, hx, h⟩ := map_eq_ok.mp h
    cases h
    exact detachTowed_writes hx
  · exact hitch_writes h

end Writes

theorem handlePlayer_discreet (r : Realm) (sender : Client) (packet : PlayerSync) :
    Discreet r (r.handlePlayer sender packet).2 := by
  have told : Discreet r (r.tellOnFoot sender packet) := (Discreet.send r ..).trans (.send ..)
  rw [handlePlayer_eq]
  refine told.trans ?_
  unfold walkOn
  split
  · exact .refl _
  · next store h =>
    refine (Discreet.withStore ?_).trans (.reportHit ..)
    exact (update_writes (onFoot_tame packet _).type (updatePlayer_update h)).trans
      (propagate_writes store sender.player)

theorem handleVehicle_discreet (r : Realm) (sender : Client) (packet : VehicleSync) :
    Discreet r (r.handleVehicle sender packet).2 := by
  have told : Discreet r (r.tellInVehicle sender packet) := (Discreet.send r ..).trans (.send ..)
  cases live : r.store.find? sender.player with
  | none =>
    rw [handleVehicle_absent live]
    exact .refl r
  | some e =>
    rw [handleVehicle_eq (contains_iff.mpr ⟨e, live⟩)]
    refine told.trans ?_
    unfold rideOn
    split
    · exact .refl _
    next seated h =>
    have spoken := update_writes (seated_tame packet).type (updatePlayer_update h)
    refine (Discreet.withStore spoken).trans ((Discreet.reportHit _ sender.player packet.hit).trans ?_)
    unfold steer
    split
    · exact .refl _
    split
    · exact .refl _
    split
    · exact .refl _
    · next driven => exact .withStore (drive_writes driven)

theorem handleCamera_discreet (r : Realm) (sender : Client) (packet : CameraSync) :
    Discreet r (r.handleCamera sender packet).2 := by
  unfold handleCamera
  dsimp only
  split
  · exact .refl r
  · next h =>
    refine .withStore (update_writes ?_ (updatePlayer_update h))
    exact fun e => (Element.stays_updatePlayer _ e).1

theorem handleCommand_discreet (r : Realm) (sender : Client) (packet : SharedWorld.Command) :
    Discreet r (r.handleCommand sender packet).2 := by
  unfold handleCommand
  dsimp only
  split
  · exact .refl r
  · exact .publish r rfl

theorem take_discreet (kind : PacketKind) (r : Realm) (sender : Client) (payload : List UInt8) :
    Discreet r (r.take kind sender payload).2 :=
  take_lifts .refl handlePlayer_discreet handleVehicle_discreet (fun r _ _ => .send r ..)
    handleCamera_discreet handleCommand_discreet kind r sender payload

end Realm

/-- From `r` to `u` the same clients are registered and connected, with the same players, and nobody
is told otherwise. -/
structure Realm.Aside (r u : Realm) : Prop where
  registered : u.clients.registered = r.clients.registered
  known : ∀ id, (u.clients.get? id).map (·.standing) = (r.clients.get? id).map (·.standing)
  dropped : u.outbox.dropped = r.outbox.dropped
  visits : u.world.visits = r.world.visits
  players : ∀ a, u.store.endpoint? a = r.store.endpoint? a
  shut : ∀ a, u.world.Shut a → r.world.Shut a
  linked : r.store.Linked → u.store.Linked

namespace Realm.Aside
variable {r u v : Realm}

theorem refl (r : Realm) : Aside r r := ⟨rfl, fun _ => rfl, rfl, rfl, fun _ => rfl, fun _ => id, id⟩

theorem trans (h : Aside r u) (h' : Aside u v) : Aside r v where
  registered := h'.registered.trans h.registered
  known id := (h'.known id).trans (h.known id)
  dropped := h'.dropped.trans h.dropped
  visits := h'.visits.trans h.visits
  players a := (h'.players a).trans (h.players a)
  shut a := h.shut a ∘ h'.shut a
  linked := h'.linked ∘ h.linked

theorem world (op : World.Op)
    (players : ∀ a, (r.world.perform op).store.endpoint? a = r.store.endpoint? a) :
    Aside r { r with world := r.world.perform op } where
  registered := rfl
  known _ := rfl
  dropped := rfl
  visits := World.perform_visits r.world op
  players := players
  shut _ := World.perform_shut r.world op
  linked ok := (World.perform_linked ok op).1

theorem runPass (r : Realm) : Aside r { r with world := r.world.runPass.2 } :=
  .world .runPass (World.runPass_alike r.world).endpoint?

theorem modify (r : Realm) (number : ClientId) {f : Client → Client}
    (same : ∀ c, (f c).standing = c.standing) :
    Aside r { r with clients := r.clients.modify number f } where
  registered := rfl
  known other := by
    unfold Clients.get? Clients.modify
    rw [List.getElem?_modify]
    split
    · simp [Function.comp_def, same]
    · simp
  dropped := rfl
  visits := rfl
  players _ := rfl
  shut _ := id
  linked := id

theorem take (kind : PacketKind) (r : Realm) (sender : Client) (payload : List UInt8) :
    Aside r (r.take kind sender payload).2 := by
  have discreet := take_discreet kind r sender payload
  refine ⟨congrArg _ discreet.clients, fun id => ?_, discreet.dropped, discreet.visits, fun a => ?_,
    fun a shut => ?_, Turns.linked (take_turns kind r sender payload)⟩
  · rw [discreet.clients]
  · have bonds := congrArg (Option.bind · (·.endpoint)) (take_bonds kind r sender payload a)
    have seen (s : Store) : (s.bonds? a).bind (·.endpoint) = s.endpoint? a := by
      unfold bonds? endpoint?
      cases s.find? a <;> rfl
    simpa only [seen] using bonds
  · exact shut.imp fun l h => ⟨(Writes.watchers discreet.writes a).symm.trans h.1, h.2⟩

end Realm.Aside

namespace Server

theorem handler_bare (kind : PacketKind) (e : QueueEntry Parcel) (r : Realm) (bare : r.world.Bare) :
    (handler kind e r).2.world.Bare := by
  unfold handler
  split
  · exact bare
  · next sender _ => exact (Realm.take_discreet kind r sender e.item.payload).bare bare

theorem handler_aside (kind : PacketKind) (e : QueueEntry Parcel) (r : Realm) :
    Realm.Aside r (handler kind e r).2 := by
  unfold handler
  split
  · exact .refl r
  · next sender _ => exact .take kind r sender e.item.payload

end Server
end SharedWorld
