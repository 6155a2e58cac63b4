import SharedWorld.Dispatcher
import SharedWorld.Realm.Intake
import SharedWorld.Settings

/-! The server: a realm, a queue for every kind of packet that is handled, and counts of the packets
that it let fall. Packets only queue up when they come in; what they do, they do in a run. -/
namespace SharedWorld

structure Parcel where
  sender : ClientId
  payload : List UInt8
deriving DecidableEq

structure Server where
  settings : Settings
  realm : Realm
  dispatcher : Dispatcher PacketKind Parcel := {}
  -- packets of kinds that have no handler, or that there are not
  unknown : Nat := 0
  rateLimited : Nat := 0
  -- packets that their queue did not take
  rejected : Nat := 0

namespace Server

def queueFor (settings : Settings) : PacketKind → QueueConfig
  | .command => settings.commandQueue
  | _ => settings.syncQueue

def start (settings : Settings) : Server where
  settings := settings
  realm := { world := { store := .withCellSize settings.cellSize } }
  dispatcher :=
    Realm.handled.foldl (fun d kind => d.register kind kind (queueFor settings kind)) {}

def clientFor (s : Server) (endpoint : Endpoint) : Except WorldError ClientId × Server :=
  let r := s.realm
  match r.clients.find? endpoint with
  | some id => (.ok id, s)
  | none =>
    match r.world.insert { kind := .player { endpoint } } with
    | (.error e, world) => (.error e, { s with realm := { r with world } })
    | (.ok player, world) =>
      let allowance := Allowance.ofRate s.settings.inboundRate
      let (id, clients) := r.clients.enlist { endpoint, player, allowance }
      let realm := ({ r with world, clients } : Realm).publish (.clientConnected endpoint player)
      (.ok id, { s with realm })

/-- Lets a client go and takes its player out of the world; only the first call for a client does
anything, and answers so. -/
def disconnect (s : Server) (endpoint : Endpoint) (reason : QuitReason) : Bool × Server :=
  let r := s.realm
  match r.clients.find? endpoint with
  | none => (false, s)
  | some id =>
    match r.clients.get? id, r.clients.disconnect id with
    | some client, (true, clients) =>
      let (_, world) := r.world.remove client.player
      let realm : Realm :=
        { world, clients := clients.remove endpoint, outbox := r.outbox.drop endpoint }
      (true, { s with realm := realm.publish (.clientDisconnected endpoint client.player reason) })
    | _, _ => (false, s)

def quitReason : PacketKind → QuitReason
  | .playerQuit => .quit
  | _ => .timeout

def accept (s : Server) (id : ClientId) (endpoint : Endpoint) (kind : PacketKind)
    (payload : List UInt8) : Server :=
  let (allowed, clients) := s.realm.clients.spend id
  let s := { s with realm := { s.realm with clients } }
  if ¬ allowed then { s with rateLimited := s.rateLimited + 1 }
  else
    let (answer, dispatcher) := s.dispatcher.enqueue kind endpoint ⟨id, payload⟩
    let s := { s with dispatcher }
    match answer with
    | .ok _ => s
    | .error (.unregistered _) => { s with unknown := s.unknown + 1 }
    | .error _ => { s with rejected := s.rejected + 1 }

def receive (s : Server) (endpoint : Endpoint) (opening : UInt8) (payload : List UInt8)
    (latency : Option UInt32) : Server :=
  match PacketKind.ofByte? opening with
  | none => { s with unknown := s.unknown + 1 }
  | some kind =>
    if kind.isLifecycle then (s.disconnect endpoint (quitReason kind)).2
    else if ¬ s.dispatcher.isRegistered kind then { s with unknown := s.unknown + 1 }
    else
      match s.clientFor endpoint with
      | (.error _, s) => s
      | (.ok id, s) =>
        let clients := match latency with
          | some latency => s.realm.clients.setLatency id latency
          | none => s.realm.clients
        accept { s with realm := { s.realm with clients } } id endpoint kind payload

def handler (kind : PacketKind) : Handler Parcel Realm := fun entry r =>
  match r.clients.get? entry.item.sender with
  | none => ({ succeeded := true }, r)
  | some sender =>
    let (answer, r) := r.take kind sender entry.item.payload
    ({ succeeded := answer.isOk }, r)

def run (s : Server) : Server :=
  let (dispatcher, realm) := s.dispatcher.run handler s.realm
  { s with dispatcher, realm }

/-- The periodic pass over the shapes; the workers have their turns before and after it. -/
def periodicPass (s : Server) : Server :=
  let pass (r : Realm) : Realm := { r with world := r.world.runPass.2 }
  let (dispatcher, realm) := s.dispatcher.runWithGuest handler pass s.realm
  { s with dispatcher, realm }

def shutdown (s : Server) : Server := { s with dispatcher := s.dispatcher.shutdown }

def clientCount (s : Server) : Nat := s.realm.clients.connected.length

end Server
end SharedWorld
