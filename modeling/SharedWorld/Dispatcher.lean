import SharedWorld.Queue
import SharedWorld.Rota

/-! The dispatcher binds every kind of packet to a handler and a queue of its own. Handlers are
named by values of a type, so that one function tells what each of them does. -/
namespace SharedWorld

structure Binding (η α : Type) where
  handler : η
  queue : Queue α

inductive Worker where
  | shard (kind : PacketKind) (number : Nat)
  | guest
  deriving DecidableEq

namespace Worker

def serves (kind : PacketKind) : Worker → Bool
  | shard k _ => k = kind
  | guest => false

end Worker

structure Dispatcher (η α : Type) where
  bindings : Table PacketKind (Binding η α) := .empty
  rota : Rota Worker := {}

namespace Dispatcher
variable {η α σ : Type}

/-- Binds a handler to a kind. What waits for an earlier handler of that kind is never handled. -/
def register (d : Dispatcher η α) (kind : PacketKind) (handler : η) (config : QueueConfig) :
    Dispatcher η α :=
  let queue : Queue α := .start kind config
  let woken := d.rota.woken.filter (fun w => !w.serves kind) ++
    (List.range queue.workers).map (Worker.shard kind)
  { bindings := d.bindings.insert kind ⟨handler, queue⟩, rota := { d.rota with woken } }

def isRegistered (d : Dispatcher η α) (kind : PacketKind) : Bool := d.bindings.contains kind

def setQueue (d : Dispatcher η α) (kind : PacketKind) (queue : Queue α) : Dispatcher η α :=
  { d with bindings := d.bindings.modify kind fun b => { b with queue } }

def enqueue (d : Dispatcher η α) (kind : PacketKind) (endpoint : Endpoint) (item : α) :
    Except DispatchError Nat × Dispatcher η α :=
  match d.bindings.find? kind with
  | none => (.error (.unregistered kind), d)
  | some b =>
    let (answer, queue) := b.queue.enqueue endpoint item
    let rota := if answer.isOk then d.rota.wake (.shard kind (queue.shardOf endpoint)) else d.rota
    (answer, { d.setQueue kind queue with rota })

def stop (d : Dispatcher η α) (kind : PacketKind) : Dispatcher η α :=
  { d with bindings := d.bindings.modify kind fun b => { b with queue := b.queue.stop } }

def turn (handle : η → Handler α σ) (errand : σ → σ) :
    Worker → Dispatcher η α → σ → Dispatcher η α × σ
  | .guest, d, s => (d, errand s)
  | .shard kind number, d, s =>
    match d.bindings.find? kind with
    | none => (d, s)
    | some b =>
      let (queue, s) := b.queue.turn (handle b.handler) number s
      (d.setQueue kind queue, s)

def isReady (d : Dispatcher η α) : Worker → Bool
  | .guest => true
  | .shard kind number => (d.bindings.find? kind).any fun b => b.queue.isReady number

/-- One pass, with those who found something to do. Of these the workers step aside; the guest and
all others go to sleep. -/
def pass (handle : η → Handler α σ) (errand : σ → σ) (d : Dispatcher η α) (s : σ) :
    List Worker × Dispatcher η α × σ :=
  let (drawn, rota) := d.rota.draw Rota.passLength
  let busy := drawn.filter d.isReady
  let rota := rota.comeBack (busy.filter (· ≠ .guest))
  (busy, drawn.foldl (fun (d, s) w => turn handle errand w d s) ({ d with rota }, s))

def passes (handle : η → Handler α σ) (errand : σ → σ) :
    Nat → Nat → Dispatcher η α → σ → Dispatcher η α × σ
  | 0, _, d, s => (d, s)
  | n + 1, idle, d, s =>
    if d.rota.isEmpty ∧ Rota.patience ≤ idle then (d, s)
    else
      let (busy, d, s) := pass handle errand d s
      passes handle errand n (if busy.isEmpty then idle + 1 else 0) d s

def queues (d : Dispatcher η α) : List (Queue α) := d.bindings.values.map (·.queue)

def pending (d : Dispatcher η α) : Nat := (d.queues.flatMap (·.entries)).length

/-- Turns until nothing is left to do. A turn takes an entry or sends its worker to sleep, and only
who took an entry comes back: so many passes are enough. -/
def settle (handle : η → Handler α σ) (errand : σ → σ) (d : Dispatcher η α) (s : σ) :
    Dispatcher η α × σ :=
  passes handle errand (2 * d.pending + d.rota.woken.length + Rota.patience) 0 d s

def run (handle : η → Handler α σ) (d : Dispatcher η α) (s : σ) : Dispatcher η α × σ :=
  settle handle id d s

/-- A run with a guest, who stands in line behind those that are awake, does its errand once and has
a last turn to take leave. -/
def runWithGuest (handle : η → Handler α σ) (errand : σ → σ) (d : Dispatcher η α) (s : σ) :
    Dispatcher η α × σ :=
  let (d, s) := settle handle errand { d with rota := d.rota.wake .guest } s
  (pass handle id { d with rota := d.rota.wake .guest } s).2

def shutdown (d : Dispatcher η α) : Dispatcher η α := { rota := { turns := d.rota.turns } }

end Dispatcher
end SharedWorld
