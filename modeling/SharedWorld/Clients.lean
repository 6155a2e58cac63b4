import SharedWorld.Allowance
import SharedWorld.Id

/-! Clients and who of them is registered. A client keeps its number for good, so that a packet that
waits can still tell what became of its sender after the endpoint came back as somebody else. -/
namespace SharedWorld

structure ClientId where
  number : Nat
deriving DecidableEq, Inhabited

structure Client where
  endpoint : Endpoint
  player : ElementId
  connected : Bool := true
  -- in milliseconds, as last reported
  latency : UInt32 := 0
  allowance : Allowance := .ofRate Allowance.defaultRate
deriving DecidableEq

/-- The latency as a packet carries it, in two bytes. -/
def Client.wireLatency (c : Client) : UInt16 := .ofNat (min c.latency.toNat 65535)

structure Clients where
  -- every client there ever was, by number
  known : List Client := []
  -- the client registered for each endpoint
  registered : Table Endpoint ClientId := .empty

namespace Clients

def get? (cs : Clients) (id : ClientId) : Option Client := cs.known[id.number]?

def find? (cs : Clients) (endpoint : Endpoint) : Option ClientId := cs.registered.find? endpoint

def modify (cs : Clients) (id : ClientId) (f : Client → Client) : Clients :=
  { cs with known := cs.known.modify id.number f }

def enlist (cs : Clients) (client : Client) : ClientId × Clients :=
  let id : ClientId := ⟨cs.known.length⟩
  (id, { known := cs.known ++ [client], registered := cs.registered.insert client.endpoint id })

def findOrEnlist {ε : Type} (cs : Clients) (endpoint : Endpoint) (player : Except ε ElementId) :
    Except ε (ClientId × Bool) × Clients :=
  match cs.find? endpoint, player with
  | some id, _ => (.ok (id, false), cs)
  | none, .error e => (.error e, cs)
  | none, .ok player =>
    let (id, cs) := cs.enlist { endpoint, player }
    (.ok (id, true), cs)

def remove (cs : Clients) (endpoint : Endpoint) : Clients :=
  { cs with registered := cs.registered.erase endpoint }

def size (cs : Clients) : Nat := cs.registered.size

def isConnected (cs : Clients) (id : ClientId) : Bool := (cs.get? id).any (·.connected)

def connected (cs : Clients) : List Endpoint :=
  (cs.registered.entries.filter fun (_, id) => cs.isConnected id).map (·.1)

/-- Those that hear what a sender does. -/
def others (cs : Clients) (sender : Endpoint) : List Endpoint :=
  cs.connected.filter (· ≠ sender)

def setLatency (cs : Clients) (id : ClientId) (latency : UInt32) : Clients :=
  cs.modify id fun c => { c with latency }

/-- Marks a client as gone; only the first mark counts. -/
def disconnect (cs : Clients) (id : ClientId) : Bool × Clients :=
  (cs.isConnected id, cs.modify id fun c => { c with connected := false })

def spend (cs : Clients) (id : ClientId) : Bool × Clients :=
  match cs.get? id with
  | some c =>
    let (allowed, allowance) := c.allowance.spend
    (allowed, cs.modify id fun c => { c with allowance })
  | none => (false, cs)

end Clients
end SharedWorld
