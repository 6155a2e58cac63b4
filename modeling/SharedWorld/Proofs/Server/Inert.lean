import SharedWorld.Proofs.Server.Parcels

/-! Entries that come to nothing. A client may be gone by the time that a worker comes to what it sent,
also where its endpoint is somebody else by then, and a payload may not be readable: whoever deals
with such an entry counts it, and that is all. -/
namespace SharedWorld

/-- The payload can be read as the packets that a handler takes in; one that takes in none reads
nothing. -/
def Realm.isReadable (kind : PacketKind) (payload : List UInt8) : Bool :=
  let reads (α : Type) [Packet α] : Bool := (Packet.read payload : Except _ α).isOk
  match kind with
  | .playerPureSync => reads PlayerSync
  | .vehiclePureSync => reads VehicleSync
  | .playerKeySync => reads KeySync
  | .cameraSync => reads CameraSync
  | .command => reads SharedWorld.Command
  | _ => true

namespace Realm

theorem takeAs_unreadable {α : Type} [Packet α]
    {handle : Realm → Client → α → Except WorldError Unit × Realm} {r : Realm} {sender : Client}
    {payload : List UInt8} (unreadable : (Packet.read payload : Except _ α).isOk = false) :
    ∃ cause, takeAs handle r sender payload = (.error (.malformed (Packet.kind α) cause), r) := by
  cases h : (Packet.read payload : Except Wire.DecodeError α) with
  | error cause => exact ⟨cause, by simp [takeAs, h]⟩
  | ok packet =>
    rw [h] at unreadable
    cases unreadable

theorem take_unreadable {kind : PacketKind} {r : Realm} {sender : Client} {payload : List UInt8}
    (connected : sender.connected) (unreadable : isReadable kind payload = false) :
    ∃ cause, r.take kind sender payload = (.error (.malformed kind cause), r) := by
  unfold take
  rw [if_neg fun gone => gone connected]
  cases kind with
  | playerPureSync | vehiclePureSync | playerKeySync | cameraSync | command =>
    exact takeAs_unreadable unreadable
  | _ => cases unreadable

theorem take_departed {kind : PacketKind} {r : Realm} {sender : Client} (gone : ¬ sender.connected)
    (payload : List UInt8) : r.take kind sender payload = (.ok (), r) := if_pos gone

end Realm

theorem Queue.Orderly.mem_line {α : Type} {q : Queue α} (ok : q.Orderly) {i : Nat}
    {e : QueueEntry α} (h : e ∈ q.held i ++ q.waiting i) : e ∈ q.line e.endpoint := by
  unfold line
  rw [ok.homed i e h]
  exact List.mem_filter.mpr ⟨h, decide_eq_true rfl⟩

namespace Server
variable {s : Server} {kind : PacketKind} {b : Binding PacketKind Parcel} {shard : Nat}
  {e : QueueEntry Parcel} {rest : List (QueueEntry Parcel)}

def popped (q : Queue Parcel) (shard : Nat) (rest : List (QueueEntry Parcel)) : Queue Parcel :=
  q.modifyShard shard ({ · with batch := rest })

theorem serve_idle (bound : s.dispatcher.bindings.find? kind = some b) (running : ¬ b.queue.stopped)
    (next : b.queue.held shard = e :: rest) (outcome : Outcome)
    (idle : handler b.handler e s.realm = (outcome, s.realm)) :
    s.perform (.serve kind shard) = s.withDispatcher (s.dispatcher.setQueue kind
      ((popped b.queue shard rest).settle outcome)) := by
  have served : b.queue.serve (handler b.handler) shard s.realm =
      ((popped b.queue shard rest).settle outcome, s.realm) := by
    unfold Queue.serve
    rw [next]
    dsimp only
    rw [if_neg running, idle]
    rfl
  unfold perform
  simp only [bound, served]
  rfl

theorem serve_departed (bound : s.dispatcher.bindings.find? kind = some b)
    (running : ¬ b.queue.stopped) (next : b.queue.held shard = e :: rest)
    (gone : s.realm.clients.Departed e.item.sender) :
    s.perform (.serve kind shard) = s.withDispatcher (s.dispatcher.setQueue kind
      { popped b.queue shard rest with handled := b.queue.handled + 1 }) := by
  obtain ⟨c, known, left⟩ := gone
  refine serve_idle bound running next { succeeded := true } ?_
  simp only [handler, known, Realm.take_departed left]
  rfl

theorem serve_unreadable (bound : s.dispatcher.bindings.find? kind = some b)
    (running : ¬ b.queue.stopped) (next : b.queue.held shard = e :: rest)
    (here : s.realm.clients.isConnected e.item.sender)
    (unreadable : Realm.isReadable b.handler e.item.payload = false) :
    s.perform (.serve kind shard) = s.withDispatcher (s.dispatcher.setQueue kind
      { popped b.queue shard rest with failed := b.queue.failed + 1 }) := by
  obtain ⟨c, known, connected⟩ := (Option.any_eq_true ..).mp here
  obtain ⟨cause, refused⟩ := Realm.take_unreadable (r := s.realm) connected unreadable
  refine serve_idle bound running next { succeeded := false } ?_
  simp only [handler, known, refused]
  rfl

theorem disconnect_departed (ok : s.Accounted) {endpoint : Endpoint} {id : ClientId}
    (here : s.realm.clients.find? endpoint = some id) (reason : QuitReason) :
    (s.disconnect endpoint reason).2.realm.clients.Departed id := by
  rcases disconnect_cases ok.present endpoint reason with
    ⟨absent, _⟩ | ⟨id', c, here', known, clients, _⟩
  · cases here.symm.trans absent
  · cases here.symm.trans here'
    have gone := Clients.departed_disconnect known
    rw [clients]
    exact gone

theorem farewell_departed (ok : s.Accounted) {endpoint : Endpoint} {id : ClientId}
    (here : s.realm.clients.find? endpoint = some id) {opening : UInt8}
    (farewell : isFarewell opening) (payload : List UInt8) (latency : Option UInt32) :
    (s.receive endpoint opening payload latency).realm.clients.Departed id := by
  obtain ⟨kind, known, lifecycle⟩ := (Option.any_eq_true ..).mp farewell
  have left : s.receive endpoint opening payload latency =
      (s.disconnect endpoint (quitReason kind)).2 := by
    simp only [receive, known, lifecycle, if_true]
  rw [left]
  exact disconnect_departed ok here _

theorem departed_not_registered {cs : Clients} (present : cs.Present) {id : ClientId}
    (gone : cs.Departed id) (endpoint : Endpoint) : cs.find? endpoint ≠ some id := by
  intro here
  obtain ⟨c, known, left⟩ := gone
  obtain ⟨c', known', _, connected⟩ := present endpoint id here
  cases known.symm.trans known'
  exact left connected

/-- What waits from clients who have gone, and what cannot be read, comes to nothing. Every entry is
from a client that is known at the endpoint of the entry. A client that is let go, or quits, has gone
for good, whoever comes to its endpoint later. A worker that comes to an entry of a client that has
gone, or to one that cannot be read, takes it off its batch and counts it, as handled or as failed;
the realm stays as it is, with all its elements, indexes, clients, events and packets to be sent. -/
structure Inert (s : Server) : Prop where
  known : ∀ {kind b i e}, s.dispatcher.bindings.find? kind = some b →
    e ∈ b.queue.held i ++ b.queue.waiting i →
    ∃ c, s.realm.clients.get? e.item.sender = some c ∧ c.endpoint = e.endpoint
  left : ∀ {endpoint id}, s.realm.clients.find? endpoint = some id →
    (∀ reason, (s.perform (.disconnect endpoint reason)).realm.clients.Departed id) ∧
      ∀ opening payload latency, isFarewell opening →
        (s.perform (.receive endpoint opening payload latency)).realm.clients.Departed id
  final : ∀ {id}, s.realm.clients.Departed id → ∀ ops,
    (s.performAll ops).realm.clients.Departed id ∧
      ∀ endpoint, (s.performAll ops).realm.clients.find? endpoint ≠ some id
  departed : ∀ {kind b shard e rest}, s.dispatcher.bindings.find? kind = some b →
    ¬ b.queue.stopped → b.queue.held shard = e :: rest →
    s.realm.clients.Departed e.item.sender →
    s.perform (.serve kind shard) = s.withDispatcher (s.dispatcher.setQueue kind
      { popped b.queue shard rest with handled := b.queue.handled + 1 })
  unreadable : ∀ {kind b shard e rest}, s.dispatcher.bindings.find? kind = some b →
    ¬ b.queue.stopped → b.queue.held shard = e :: rest →
    s.realm.clients.isConnected e.item.sender →
    Realm.isReadable b.handler e.item.payload = false →
    s.perform (.serve kind shard) = s.withDispatcher (s.dispatcher.setQueue kind
      { popped b.queue shard rest with failed := b.queue.failed + 1 })

theorem Accounted.inert (ok : s.Accounted) : s.Inert where
  known bound he := ok.addressed _ _ bound _ _ ((ok.orderly _ _ bound).mem_line he)
  left here := ⟨disconnect_departed ok here, fun _ payload latency farewell =>
    farewell_departed ok here farewell payload latency⟩
  final gone ops := by
    have onward := performAll_onward ok ops
    have still := gone.ages onward.ages
    exact ⟨still, departed_not_registered onward.accounted.present still⟩
  departed := serve_departed
  unreadable := serve_unreadable

theorem performAll_inert (settings : Settings) (ops : List Op) :
    ((start settings).performAll ops).Inert :=
  (performAll_onward (start_accounted settings) ops).accounted.inert

/-- A client sends a packet and goes; another comes to its endpoint, with one that cannot be read, before
a worker takes both. -/
def relief : List Op :=
  [.receive ⟨5⟩ 0x22 (Packet.write ({} : CameraSync)) none, .disconnect ⟨5⟩ .quit,
    .receive ⟨5⟩ 0x22 [1] none, .take .cameraSync 1]

theorem relief_inert :
    let s := (start {}).performAll relief
    let t := s.perform (.serve .cameraSync 1)
    let first : QueueEntry Parcel := ⟨⟨5⟩, ⟨⟨0⟩, Packet.write ({} : CameraSync)⟩, 0⟩
    let second : QueueEntry Parcel := ⟨⟨5⟩, ⟨⟨1⟩, [1]⟩, 1⟩
    s.realm.clients.Departed ⟨0⟩ ∧ s.realm.clients.find? ⟨5⟩ = some ⟨1⟩ ∧
      s.realm.clients.isConnected ⟨1⟩ ∧ Realm.isReadable .cameraSync first.item.payload ∧
      ¬ Realm.isReadable .cameraSync second.item.payload ∧
      ∃ b b', s.dispatcher.bindings.find? .cameraSync = some b ∧ b.queue.held 1 = [first, second] ∧
        t = s.withDispatcher (s.dispatcher.setQueue .cameraSync
          { popped b.queue 1 [second] with handled := b.queue.handled + 1 }) ∧
        t.dispatcher.bindings.find? .cameraSync = some b' ∧ b'.queue.held 1 = [second] ∧
        t.perform (.serve .cameraSync 1) = t.withDispatcher (t.dispatcher.setQueue .cameraSync
          { popped b'.queue 1 [] with failed := b'.queue.failed + 1 }) := by
  intro s t first second
  have bound : (s.dispatcher.bindings.find? .cameraSync).map
      (fun b => (b.handler, b.queue.stopped, b.queue.held 1)) =
      some (.cameraSync, false, [first, second]) := by decide +kernel
  have bound' : (t.dispatcher.bindings.find? .cameraSync).map
      (fun b => (b.handler, b.queue.stopped, b.queue.held 1)) =
      some (.cameraSync, false, [second]) := by decide +kernel
  obtain ⟨b, found, parts⟩ := Option.map_eq_some_iff.mp bound
  obtain ⟨_, running, next⟩ : b.handler = _ ∧ b.queue.stopped = false ∧ _ := by simpa using parts
  obtain ⟨b', found', parts'⟩ := Option.map_eq_some_iff.mp bound'
  obtain ⟨handler', running', next'⟩ : b'.handler = _ ∧ b'.queue.stopped = false ∧ _ := by
    simpa using parts'
  have gone : s.realm.clients.Departed ⟨0⟩ := by
    obtain ⟨c, known, left⟩ : ∃ c, s.realm.clients.get? ⟨0⟩ = some c ∧ c.connected = false :=
      Option.map_eq_some_iff.mp (by decide +kernel)
    exact ⟨c, known, by simp [left]⟩
  have unreadable : Realm.isReadable b'.handler [1] = false := by
    rw [handler']
    decide +kernel
  have inert : s.Inert := performAll_inert {} relief
  have inert' : t.Inert := by
    have all := performAll_inert {} (relief ++ [.serve .cameraSync 1])
    rwa [performAll, List.foldl_append] at all
  refine ⟨gone, by decide +kernel, by decide +kernel, by decide +kernel, by decide +kernel,
    b, b', found, next, ?_, found', next', ?_⟩
  · exact inert.departed found (by simp [running]) next gone
  · exact inert'.unreadable found' (by simp [running']) next' (by decide +kernel) unreadable

end Server
end SharedWorld
