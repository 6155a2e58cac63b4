import SharedWorld.Id
import SharedWorld.Packet.Kind

/-! The queue of one kind of packet. Entries lie in shards, all entries of an endpoint in one shard,
and a shard is served by a worker of its own, a batch at a turn. -/
namespace SharedWorld

inductive DispatchError
  | unregistered (kind : PacketKind)
  | queueFull (kind : PacketKind)
  | stopped (kind : PacketKind)
deriving DecidableEq

def DispatchError.name : DispatchError → String
  | unregistered _ => "Unregistered"
  | queueFull _ => "QueueFull"
  | stopped _ => "Stopped"

def DispatchError.message : DispatchError → String
  | unregistered kind =>
    let label := kind.label
    s!"No handler registered for {label}"
  | queueFull kind =>
    let label := kind.label
    s!"Queue for {label} is full"
  | stopped kind =>
    let label := kind.label
    s!"Queue for {label} is shutting down"

structure QueueConfig where
  sleepMillis : Nat := 10
  workers : Nat := 1
  -- how many entries may wait, over all shards
  capacity : Nat := 4096
  -- how many entries a worker takes at a turn
  batch : Nat := 64
  budgetMillis : Nat := 5
deriving DecidableEq

structure QueueEntry (α : Type) where
  endpoint : Endpoint
  item : α
  sequence : Nat
deriving DecidableEq

structure Shard (α : Type) where
  waiting : List (QueueEntry α) := []
  -- what the worker has taken and not dealt with yet
  batch : List (QueueEntry α) := []
  -- the worker found the queue stopped and left
  ended : Bool := false

def Shard.refill {α : Type} (size : Nat) (s : Shard α) : Shard α :=
  if s.ended ∨ s.batch ≠ [] then s
  else { s with batch := s.waiting.take size, waiting := s.waiting.drop size }

/-- How an entry was dealt with. A handler may also stop the queue that it serves. -/
structure Outcome where
  succeeded : Bool
  stops : Bool := false
deriving DecidableEq

abbrev Handler (α σ : Type) := QueueEntry α → σ → Outcome × σ

structure Queue (α : Type) where
  kind : PacketKind
  config : QueueConfig
  shards : List (Shard α)
  sequence : Nat := 0
  stopped : Bool := false
  enqueued : Nat := 0
  handled : Nat := 0
  failed : Nat := 0
  dropped : Nat := 0

namespace Queue
variable {α σ : Type}

def start (kind : PacketKind) (config : QueueConfig) : Queue α :=
  { kind, config, shards := List.replicate (max config.workers 1) {} }

def workers (q : Queue α) : Nat := q.shards.length

def entries (q : Queue α) : List (QueueEntry α) := q.shards.flatMap (·.waiting)

def pending (q : Queue α) : Nat := q.entries.length

/-- Each shard takes an equal part of the capacity, rounded up. -/
def shardCapacity (q : Queue α) : Nat := (max q.config.capacity 1 + q.workers - 1) / q.workers

def shardOf (q : Queue α) (endpoint : Endpoint) : Nat := endpoint.number.toNat % q.workers

def shard (q : Queue α) (i : Nat) : Shard α := q.shards.getD i {}

def waiting (q : Queue α) (i : Nat) : List (QueueEntry α) := (q.shard i).waiting

def held (q : Queue α) (i : Nat) : List (QueueEntry α) := (q.shard i).batch

def modifyShard (q : Queue α) (i : Nat) (f : Shard α → Shard α) : Queue α :=
  { q with shards := q.shards.modify i f }

def enqueue (q : Queue α) (endpoint : Endpoint) (item : α) : Except DispatchError Nat × Queue α :=
  if q.stopped then (.error (.stopped q.kind), q)
  else
    let shard := q.shardOf endpoint
    if q.shardCapacity ≤ (q.waiting shard).length then
      (.error (.queueFull q.kind), { q with dropped := q.dropped + 1 })
    else
      (.ok q.sequence,
        { q.modifyShard shard fun s =>
            { s with waiting := s.waiting ++ [⟨endpoint, item, q.sequence⟩] } with
          sequence := q.sequence + 1, enqueued := q.enqueued + 1 })

def stop (q : Queue α) : Queue α := { q with stopped := true }

def settle (q : Queue α) (o : Outcome) : Queue α :=
  let q := if o.succeeded then { q with handled := q.handled + 1 }
    else { q with failed := q.failed + 1 }
  if o.stops then q.stop else q

def take (q : Queue α) (shard : Nat) : Queue α :=
  q.modifyShard shard (·.refill (max q.config.batch 1))

/-- The worker leaves; what is left of its batch, and what waits in its shard, counts as dropped. -/
def abandon (q : Queue α) (shard : Nat) : Queue α :=
  { q.modifyShard shard fun s => { s with batch := [], ended := true } with
    dropped := q.dropped + (q.held shard).length + (q.waiting shard).length }

def serve (handle : Handler α σ) (shard : Nat) (q : Queue α) (s : σ) : Queue α × σ :=
  match q.held shard with
  | [] => (q, s)
  | e :: rest =>
    if q.stopped then (q.abandon shard, s)
    else
      let (outcome, s) := handle e s
      ((q.modifyShard shard fun s => { s with batch := rest }).settle outcome, s)

def work (handle : Handler α σ) (shard : Nat) : Nat → Queue α → σ → Queue α × σ
  | 0, q, s => (q, s)
  | n + 1, q, s =>
    let (q, s) := serve handle shard q s
    work handle shard n q s

/-- One turn of the worker of a shard; it does nothing where nothing waits or the worker has left. -/
def turn (handle : Handler α σ) (shard : Nat) (q : Queue α) (s : σ) : Queue α × σ :=
  let q := q.take shard
  work handle shard (q.held shard).length q s

def isReady (q : Queue α) (shard : Nat) : Bool :=
  match q.shards[shard]? with
  | some s => !s.ended && !s.waiting.isEmpty
  | none => false

end Queue
end SharedWorld
