import SharedWorld.Proofs.World.Turns
import SharedWorld.Realm.Intake

/-! What can happen to a realm: a request to its world, clients that come and go, a payload that is
taken in. For the elements, handling a packet comes to operations on the store as well. -/
namespace SharedWorld

namespace Element

theorem tame_updatePlayer {g : Player → Player} (stays : ∀ p, (g p).vehicle = p.vehicle) :
    Tame (updatePlayer g) where
  type e := by cases e with | mk kind => cases kind <;> rfl
  refers e tie b := by
    cases e with | mk kind =>
    cases kind with
    | player p =>
      cases tie with
      | seat =>
        show (g p).vehicle = some b ↔ p.vehicle = some b
        rw [stays]
      | _ => rfl
    | _ => rfl

theorem tame_updateVehicle {g : Vehicle → Vehicle}
    (stays : ∀ v tie, (g v).reference? tie = v.reference? tie) : Tame (updateVehicle g) where
  type e := by cases e with | mk kind => cases kind <;> rfl
  refers e tie b := by
    rw [refers_updateVehicle]
    split
    · next v hv =>
      split
      · next held => rw [stays, refers_of_vehicle hv held]
      · rfl
    · rfl

theorem Tame.comp {f g : Element → Element} (hf : Tame f) (hg : Tame g) : Tame fun e => f (g e) where
  type e := (hf.type _).trans (hg.type e)
  refers e tie b := (hf.refers _ tie b).trans (hg.refers e tie b)

end Element

open Store Element

namespace Realm

inductive Op
  | world (op : World.Op)
  | clients (clients : Clients)
  | take (kind : PacketKind) (sender : Client) (payload : List UInt8)

def perform (r : Realm) : Op → Realm
  | .world op => { r with world := r.world.perform op }
  | .clients clients => { r with clients }
  | .take kind sender payload => (r.take kind sender payload).2

def run (r : Realm) (ops : List Op) : Realm := ops.foldl perform r

def fresh (cellSize : Single) (ids : IdSource) (root : ElementId) : Realm :=
  { world := .fresh cellSize ids root }

@[simp] theorem echo_store (r : Realm) (sender : Client) (packet : ReturnSync) :
    (r.echo sender packet).store = r.store := rfl

@[simp] theorem relay_store {α : Type} [Packet α] (r : Realm) (sender : Client) (packet : α) :
    (r.relay sender packet).store = r.store := rfl

@[simp] theorem withStore_store (r : Realm) (store : Store) : (r.withStore store).store = store := rfl

@[simp] theorem reportHit_store (r : Realm) (player : ElementId) (hit : Option Hit) :
    (r.reportHit player hit).store = r.store := by
  cases hit <;> rfl

theorem onFoot_tame (packet : PlayerSync) (contact : Option ElementId) :
    Tame fun e => onFootTransform packet (e.updatePlayer (onFootState packet contact)) :=
  .comp (f := onFootTransform packet) ⟨fun _ => rfl, fun _ _ _ => Iff.rfl⟩
    (tame_updatePlayer fun _ => rfl)

theorem seated_tame (packet : VehicleSync) :
    Tame fun e => seatedTransform packet (e.updatePlayer (seatedState packet)) :=
  .comp (f := seatedTransform packet) ⟨fun _ => rfl, fun _ _ _ => Iff.rfl⟩
    (tame_updatePlayer fun _ => rfl)

theorem driven_tame (packet : VehicleSync) :
    Tame fun e => drivenTransform packet (e.updateVehicle (drivenState packet)) := by
  refine .comp (f := drivenTransform packet) ⟨fun _ => rfl, fun _ _ _ => Iff.rfl⟩
    (tame_updateVehicle fun v tie => ?_)
  cases tie <;> rfl

theorem link_tame (link : TrailerLink) :
    Tame ({ · with position := link.position, rotation := link.rotation }) :=
  ⟨fun _ => rfl, fun _ _ _ => Iff.rfl⟩

/-- One link of a chain: the trailer is hitched and moved, with what hangs on it. Nothing comes of
it where the chain ends. -/
def hitchLink (previous : ElementId) (link : TrailerLink) (s : Store) :
    Except WorldError (Option Store) :=
  if s.type? link.trailer ≠ some .vehicle then .ok none
  else
    match s.attachToTower link.trailer (some previous) with
    | .error (.cyclicTow ..) => .ok none
    | .error e => .error e
    | .ok (_, s) =>
      match s.update link.trailer ({ · with position := link.position, rotation := link.rotation }) with
      | .error e => .error e
      | .ok s => .ok (some (s.propagate link.trailer).2)

theorem hitch_cons (previous : ElementId) (link : TrailerLink) (links : List TrailerLink)
    (s : Store) : hitch previous (link :: links) s =
      match hitchLink previous link s with
      | .error e => .error e
      | .ok none => .ok s
      | .ok (some s) => hitch link.trailer links s := by
  rw [hitch]
  unfold hitchLink
  split
  · rfl
  cases s.attachToTower link.trailer (some previous) with
  | error e => cases e <;> rfl
  | ok x =>
    dsimp only
    generalize x.2.update link.trailer _ = moved
    cases moved <;> rfl

section Handlers
variable {s t : Store} {id : ElementId}

theorem updatePlayer_update {state : Player → Player} {transform : Element → Element}
    (h : s.updatePlayer id state transform = .ok t) :
    s.update id (fun e => transform (e.updatePlayer state)) = .ok t := by
  obtain ⟨_, _, h⟩ := bind_eq_ok.mp h
  exact h

theorem updateVehicle_update {state : Vehicle → Vehicle} {transform : Element → Element}
    (h : s.updateVehicle id state transform = .ok t) :
    s.update id (fun e => transform (e.updateVehicle state)) = .ok t := by
  obtain ⟨_, _, h⟩ := bind_eq_ok.mp h
  exact h

theorem hitchLink_moves {previous : ElementId} {link : TrailerLink}
    (h : hitchLink previous link s = .ok (some t)) :
    ∃ changed a b, s.attachToTower link.trailer (some previous) = .ok (changed, a) ∧
      a.update link.trailer ({ · with position := link.position, rotation := link.rotation }) =
        .ok b ∧ t = (b.propagate link.trailer).2 := by
  unfold hitchLink at h
  split at h
  · cases h
  split at h
  · cases h
  · cases h
  next tow =>
  split at h <;> cases h
  next move =>
  exact ⟨_, _, _, tow, move, rfl⟩

theorem hitchLink_turns {previous : ElementId} {link : TrailerLink}
    (h : hitchLink previous link s = .ok (some t)) : Turns s t := by
  obtain ⟨changed, a, b, tow, move, rfl⟩ := hitchLink_moves h
  have pulled : Turns s b := (attachToTower_turn tow).turns.tail (update_turn (link_tame link) move)
  exact pulled.tail (propagate_turn b link.trailer)

theorem hitch_turns {previous : ElementId} {links : List TrailerLink}
    (h : hitch previous links s = .ok t) : Turns s t := by
  induction links generalizing previous s with
  | nil =>
    cases h
    exact .refl
  | cons link links ih =>
    rw [hitch_cons] at h
    split at h
    · cases h
    · cases h
      exact .refl
    · next hl => exact (hitchLink_turns hl).trans (ih h)

theorem syncTrailers_turns {vehicle : ElementId} {links : List TrailerLink}
    (h : syncTrailers s vehicle links = .ok t) : Turns s t := by
  unfold syncTrailers at h
  split at h
  · obtain ⟨x, hx, h⟩ := map_eq_ok.mp h
    cases h
    exact (detachTowed_turn hx).turns
  · exact hitch_turns h

theorem drive_turns {vehicle : ElementId} {packet : VehicleSync}
    (h : drive s vehicle packet = .ok t) : Turns s t := by
  obtain ⟨written, hw, h⟩ := bind_eq_ok.mp h
  have write : Turn s written := update_turn (driven_tame packet) (updateVehicle_update hw)
  exact (write.turns.tail (propagate_turn written vehicle)).trans (syncTrailers_turns h)

end Handlers

theorem handlePlayer_turns (r : Realm) (sender : Client) (packet : PlayerSync) :
    Turns r.store (r.handlePlayer sender packet).2.store := by
  unfold handlePlayer
  dsimp only
  split
  · exact .refl
  · next store h =>
    rw [reportHit_store]
    exact (update_turn (onFoot_tame packet _) (updatePlayer_update h)).turns.tail
      (propagate_turn store sender.player)

theorem handleVehicle_turns (r : Realm) (sender : Client) (packet : VehicleSync) :
    Turns r.store (r.handleVehicle sender packet).2.store := by
  unfold handleVehicle
  dsimp only
  split
  · exact .refl
  split
  · exact .refl
  next written hw =>
  have write : Turns r.store written :=
    (update_turn (seated_tame packet) (updatePlayer_update hw)).turns
  split
  · rwa [reportHit_store]
  split
  · rwa [reportHit_store]
  split
  · rwa [reportHit_store]
  · next h =>
    rw [reportHit_store] at h
    exact write.trans (drive_turns h)

theorem handleCamera_turns (r : Realm) (sender : Client) (packet : CameraSync) :
    Turns r.store (r.handleCamera sender packet).2.store := by
  unfold handleCamera
  dsimp only
  split
  · exact .refl
  · next h =>
    refine (update_turn ?_ (updatePlayer_update h)).turns
    exact tame_updatePlayer fun _ => rfl

theorem handleCommand_store (r : Realm) (sender : Client) (packet : SharedWorld.Command) :
    (r.handleCommand sender packet).2.store = r.store := by
  unfold handleCommand
  dsimp only
  split <;> rfl

/-- A payload that is read goes to the handler; another changes nothing. -/
theorem takeAs_cases {α : Type} [Packet α]
    (handle : Realm → Client → α → Except WorldError Unit × Realm) (r : Realm) (sender : Client)
    (payload : List UInt8) :
    ((Packet.read payload : Except _ α).toOption = none ∧
        (takeAs handle r sender payload).2 = r) ∨
      ∃ packet : α, Packet.read payload = .ok packet ∧
        (takeAs handle r sender payload).2 = (handle r sender packet).2 := by
  unfold takeAs
  cases (Packet.read payload : Except Wire.DecodeError α) with
  | error cause => exact .inl ⟨rfl, rfl⟩
  | ok packet =>
    refine .inr ⟨packet, rfl, ?_⟩
    dsimp only
    split <;>
    · next h => rw [h]

-- What every handler does, taking in a payload does.
section Lifting
variable {R : Realm → Realm → Prop} (refl : ∀ r, R r r)
include refl

theorem takeAs_lifts {α : Type} [Packet α]
    {handle : Realm → Client → α → Except WorldError Unit × Realm}
    (handled : ∀ r sender packet, R r (handle r sender packet).2) (r : Realm) (sender : Client)
    (payload : List UInt8) : R r (takeAs handle r sender payload).2 := by
  rcases takeAs_cases handle r sender payload with ⟨_, h⟩ | ⟨packet, _, h⟩
  · rw [h]
    exact refl r
  · rw [h]
    exact handled r sender packet

theorem take_lifts (player : ∀ r sender packet, R r (handlePlayer r sender packet).2)
    (vehicle : ∀ r sender packet, R r (handleVehicle r sender packet).2)
    (keys : ∀ r sender packet, R r (handleKeys r sender packet).2)
    (camera : ∀ r sender packet, R r (handleCamera r sender packet).2)
    (command : ∀ r sender packet, R r (handleCommand r sender packet).2) (kind : PacketKind)
    (r : Realm) (sender : Client) (payload : List UInt8) : R r (r.take kind sender payload).2 := by
  unfold take
  split
  · exact refl r
  split
  · exact takeAs_lifts refl player r sender payload
  · exact takeAs_lifts refl vehicle r sender payload
  · exact takeAs_lifts refl keys r sender payload
  · exact takeAs_lifts refl camera r sender payload
  · exact takeAs_lifts refl command r sender payload
  · exact refl r

end Lifting

theorem take_turns (kind : PacketKind) (r : Realm) (sender : Client) (payload : List UInt8) :
    Turns r.store (r.take kind sender payload).2.store := by
  refine take_lifts (R := fun r u => Turns r.store u.store) (fun _ => .refl) handlePlayer_turns
    handleVehicle_turns (fun _ _ _ => .refl) handleCamera_turns (fun r sender packet => ?_) kind r
    sender payload
  rw [handleCommand_store]

theorem perform_turns (r : Realm) (op : Op) : Turns r.store (r.perform op).store := by
  cases op with
  | world op => exact World.perform_turns r.world op
  | clients clients => exact .refl
  | take kind sender payload => exact take_turns kind r sender payload

theorem run_turns (r : Realm) (ops : List Op) : Turns r.store (r.run ops).store := by
  induction ops generalizing r with
  | nil => exact .refl
  | cons op ops ih => exact (perform_turns r op).trans (ih _)

/-- A property of linked stores that every turn keeps, and that the root alone has, holds whatever
happens to a realm. -/
theorem run_keeps {P : Store → Prop} (turn : ∀ {s t}, s.Linked → Turn s t → P s → P t)
    {cellSize : Single} {ids : IdSource} {root : ElementId} (start : P (withRoot cellSize ids root))
    (ops : List Op) : P ((fresh cellSize ids root).run ops).store :=
  (run_turns (fresh cellSize ids root) ops).keep (Linked.withRoot cellSize ids root) turn start

theorem run_linked (cellSize : Single) (ids : IdSource) (root : ElementId) (ops : List Op) :
    ((fresh cellSize ids root).run ops).store.Linked :=
  Turns.linked (run_turns (fresh cellSize ids root) ops) (Linked.withRoot cellSize ids root)

end Realm
end SharedWorld
