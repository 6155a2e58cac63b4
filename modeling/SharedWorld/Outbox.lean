import SharedWorld.Id
import SharedWorld.Packet

/-! What goes out to the clients: packets to be sent, and endpoints to be forgotten. -/
namespace SharedWorld

structure Outgoing where
  destinations : List Endpoint
  kind : PacketKind
  reliability : Reliability
  priority : Priority
  payload : List UInt8
deriving DecidableEq

def Outgoing.packet? (o : Outgoing) (α : Type) [Packet α] : Option α :=
  if o.kind = Packet.kind α then (Packet.read o.payload).toOption else none

structure Outbox where
  sent : List Outgoing := []
  dropped : List Endpoint := []

namespace Outbox

def post (out : Outbox) (o : Outgoing) : Outbox := { out with sent := out.sent ++ [o] }

/-- Sends a packet in the manner of its kind; without destinations nothing is sent. -/
def send {α : Type} [Packet α] (out : Outbox) (destinations : List Endpoint) (packet : α) : Outbox :=
  if destinations.isEmpty then out
  else out.post ⟨destinations, Packet.kind α, Packet.reliability α, Packet.priority α,
    Packet.write packet⟩

def drop (out : Outbox) (endpoint : Endpoint) : Outbox :=
  { out with dropped := out.dropped ++ [endpoint] }

def sentTo (out : Outbox) (endpoint : Endpoint) (kind : PacketKind) : List Outgoing :=
  out.sent.filter fun o => o.kind = kind ∧ endpoint ∈ o.destinations

end Outbox
end SharedWorld
