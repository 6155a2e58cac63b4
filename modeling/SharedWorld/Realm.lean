import SharedWorld.Clients
import SharedWorld.Outbox
import SharedWorld.Packet.Player
import SharedWorld.World

/-! The realm is the world together with those who play in it and what is on its way to them. -/
namespace SharedWorld

structure Realm where
  world : World
  clients : Clients := {}
  outbox : Outbox := {}

namespace Realm

def store (r : Realm) : Store := r.world.store

def withStore (r : Realm) (store : Store) : Realm := { r with world := { r.world with store } }

def publish (r : Realm) (e : WorldEvent) : Realm := { r with world := r.world.publish e }

def send {α : Type} [Packet α] (r : Realm) (destinations : List Endpoint) (packet : α) : Realm :=
  { r with outbox := r.outbox.send destinations packet }

def echo (r : Realm) (sender : Client) (packet : ReturnSync) : Realm :=
  r.send [sender.endpoint] packet

def relay {α : Type} [Packet α] (r : Realm) (sender : Client) (packet : α) : Realm :=
  r.send (r.clients.others sender.endpoint) packet

end Realm

def Store.resolve (s : Store) (id : Option ElementId) : Option ElementId :=
  id.filter fun id => id.isValid && s.contains id

/-- Changes the state and the transform of a player; of no other kind of element. -/
def Store.updatePlayer (s : Store) (id : ElementId) (state : Player → Player)
    (transform : Element → Element) : Except WorldError Store := do
  let _ ← s.player id
  s.update id fun e => transform (e.updatePlayer state)

def Store.updateVehicle (s : Store) (id : ElementId) (state : Vehicle → Vehicle)
    (transform : Element → Element) : Except WorldError Store := do
  let _ ← s.vehicle id
  s.update id fun e => transform (e.updateVehicle state)

/-- Everybody hears of a hit; a damager that is gone is left out. -/
def Realm.reportHit (r : Realm) (player : ElementId) (hit : Option Hit) : Realm :=
  match hit with
  | none => r
  | some h => r.publish (.playerDamaged player (r.store.resolve h.damager) h.weapon h.bodyPart)

end SharedWorld
