import Mathlib.Data.Set.Function
import SharedWorld.Proofs.Server.Run

/-! Who is in a server. In whatever order packets, farewells and the work of the workers come, the
registry, the players in the world, what was told of clients and what the transport was told to let
go of agree with each other. -/
namespace SharedWorld
open Store

def Visit.departed? : Visit → Option Endpoint
  | came _ _ => none
  | left endpoint _ => some endpoint

/-- What is told of an endpoint whose clients come and go in turn, the first one coming. Who leaves
is the player who came last; at the end there may be one who is still there. -/
inductive Stays (endpoint : Endpoint) : List Visit → Option ElementId → Prop
  | away : Stays endpoint [] none
  | came {visits : List Visit} (player : ElementId) : Stays endpoint visits none →
    Stays endpoint (visits ++ [.came endpoint player]) (some player)
  | left {visits : List Visit} {player : ElementId} : Stays endpoint visits (some player) →
    Stays endpoint (visits ++ [.left endpoint player]) none

theorem Stays.last {endpoint : Endpoint} {visits : List Visit} {present : Option ElementId}
    (h : Stays endpoint visits present) (player : ElementId) :
    visits.getLast? = some (.came endpoint player) ↔ present = some player := by
  cases h <;> simp

namespace World
variable {w u : World}

def visitsOf (w : World) (endpoint : Endpoint) : List Visit :=
  w.visits.filter (·.endpoint = endpoint)

theorem visitsOf_append {visit : Visit} (told : u.visits = w.visits ++ [visit])
    (endpoint : Endpoint) : u.visitsOf endpoint =
      w.visitsOf endpoint ++ if visit.endpoint = endpoint then [visit] else [] := by
  unfold visitsOf
  rw [told, List.filter_append]
  by_cases h : visit.endpoint = endpoint <;> simp [h]

end World

namespace Realm
variable {r u : Realm} {endpoint : Endpoint} {player : ElementId}

structure Arrival (endpoint : Endpoint) (player : ElementId) (r u : Realm) : Prop where
  absent : r.clients.find? endpoint = none
  fresh : ¬ r.store.contains player
  present : r.clients.Present → u.clients.Present ∧ ∀ e, u.clients.player? e =
    if e = endpoint then some player else r.clients.player? e
  dropped : u.outbox.dropped = r.outbox.dropped
  visits : u.world.visits = r.world.visits ++ [.came endpoint player]
  players : ∀ a, u.store.endpoint? a = if a = player then some endpoint else r.store.endpoint? a
  shut : ∀ a, u.world.Shut a → r.world.Shut a
  linked : r.store.Linked → u.store.Linked

structure Departure (endpoint : Endpoint) (player : ElementId) (r u : Realm) : Prop where
  present : u.clients.Present ∧ ∀ e, u.clients.player? e =
    if e = endpoint then none else r.clients.player? e
  dropped : u.outbox.dropped = r.outbox.dropped ++ [endpoint]
  visits : u.world.visits = r.world.visits ++ [.left endpoint player]
  players : ∀ a, u.store.endpoint? a = if a = player then none else r.store.endpoint? a
  shut : ∀ a, u.world.Shut a → r.world.Shut a
  linked : r.store.Linked → u.store.Linked

/-- The registry, the players, what was told and what was let go agree. -/
structure Accord (r : Realm) : Prop where
  present : r.clients.Present
  stays : ∀ endpoint, Stays endpoint (r.world.visitsOf endpoint) (r.clients.player? endpoint)
  players : ∀ a endpoint, r.store.endpoint? a = some endpoint ↔ r.clients.player? endpoint = some a
  dropped : r.outbox.dropped = r.world.visits.filterMap (·.departed?)
  opened : ∀ a, ¬ r.world.Shut a
  linked : r.store.Linked

namespace Accord

theorem of_aside (ok : r.Accord) (h : Aside r u) : u.Accord := by
  obtain ⟨present, player⟩ := ok.present.congr h.registered h.known
  refine ⟨present, fun endpoint => ?_, fun a endpoint => ?_, ?_, fun a shut => ?_, h.linked ok.linked⟩
  · unfold World.visitsOf
    rw [player, h.visits]
    exact ok.stays endpoint
  · rw [h.players, player]
    exact ok.players a endpoint
  · rw [h.dropped, h.visits]
    exact ok.dropped
  · exact ok.opened a (h.shut a shut)

theorem of_arrival (ok : r.Accord) (h : Arrival endpoint player r u) : u.Accord := by
  obtain ⟨present, player?⟩ := h.present ok.present
  have away : r.clients.player? endpoint = none := by simp [Clients.player?, h.absent]
  refine ⟨present, fun e => ?_, fun a e => ?_, ?_, fun a shut => ?_, h.linked ok.linked⟩
  · rw [player?, World.visitsOf_append h.visits]
    by_cases he : e = endpoint
    · have before := ok.stays endpoint
      rw [away] at before
      simpa [he, Visit.endpoint] using before.came player
    · simpa [he, Ne.symm he, Visit.endpoint] using ok.stays e
  · have unknown : r.clients.player? e ≠ some player := fun known =>
      h.fresh (contains_of_endpoint? ((ok.players player e).mpr known))
    have apart : r.store.endpoint? a ≠ some endpoint := fun held => by
      cases away.symm.trans ((ok.players a endpoint).mp held)
    rw [h.players, player?]
    -- The new player is nobody's yet, and the endpoint nobody else's.
    by_cases ha : a = player <;> by_cases he : e = endpoint
    · simp [ha, he]
    · simpa [ha, he, Ne.symm he] using unknown
    · simpa [ha, he, Ne.symm ha] using apart
    · simpa [ha, he] using ok.players a e
  · rw [h.dropped, h.visits, List.filterMap_append, ok.dropped]
    exact (List.append_nil _).symm
  · exact ok.opened a (h.shut a shut)

theorem of_departure (ok : r.Accord) (here : r.clients.player? endpoint = some player)
    (h : Departure endpoint player r u) : u.Accord := by
  obtain ⟨present, player?⟩ := h.present
  refine ⟨present, fun e => ?_, fun a e => ?_, ?_, fun a shut => ?_, h.linked ok.linked⟩
  · rw [player?, World.visitsOf_append h.visits]
    by_cases he : e = endpoint
    · have before := ok.stays endpoint
      rw [here] at before
      simpa [he, Visit.endpoint] using before.left
    · simpa [he, Ne.symm he, Visit.endpoint] using ok.stays e
  · have only : r.store.endpoint? a = some endpoint ↔ a = player := by
      rw [ok.players, here, Option.some_inj, eq_comm]
    rw [h.players, player?]
    by_cases ha : a = player <;> by_cases he : e = endpoint
    · simp [ha, he]
    · have other : r.clients.player? e ≠ some a := fun known => by
        cases ((ok.players a e).mpr known).symm.trans (only.mpr ha)
        exact he rfl
      simpa [ha, he] using ha ▸ other
    · simpa [ha, he] using fun held => ha (only.mp held)
    · simpa [ha, he] using ok.players a e
  · rw [h.dropped, h.visits, List.filterMap_append, ok.dropped]
    rfl
  · exact ok.opened a (h.shut a shut)

end Accord

theorem arrival (absent : r.clients.find? endpoint = none) {w : World}
    (made : r.world.insert { kind := .player { endpoint } } = (.ok player, w)) (allowance : Allowance) :
    Arrival endpoint player r (({ r with
      world := w
      clients := (r.clients.enlist { endpoint, player, allowance }).2 } : Realm).publish
        (.clientConnected endpoint player)) := by
  obtain ⟨granted, rfl⟩ := World.insert_performs made
  obtain ⟨fresh, endpoint?⟩ := insert_granted granted
  refine ⟨absent, fresh, fun ok => ok.enlist rfl, rfl, ?_, endpoint?, fun a => ?_, fun ok => ?_⟩
  · exact (World.publish_visits ..).trans (congrArg (· ++ _) (World.perform_visits ..))
  · exact World.perform_shut r.world (.store _)
  · exact (World.perform_linked ok (.store (.insert { kind := .player { endpoint } }))).1

theorem Accord.departure (ok : r.Accord) {id : ClientId} {c : Client}
    (here : r.clients.find? endpoint = some id) (known : r.clients.get? id = some c)
    (alone : r.world.Spares c.player) (reason : QuitReason) :
    Departure endpoint c.player r (({
      world := (r.world.remove c.player).2
      clients := (r.clients.disconnect id).2.remove endpoint
      outbox := r.outbox.drop endpoint } : Realm).publish
        (.clientDisconnected endpoint c.player reason)) := by
  have held : r.store.endpoint? c.player = some endpoint :=
    (ok.players ..).mpr (Clients.player?_of_find? here known)
  have notRoot : c.player ≠ r.store.root := by
    intro root
    have typed := endpoint?_isSome.mp ⟨endpoint, held⟩
    cases ok.linked.rooted.symm.trans (root ▸ typed)
  refine ⟨ok.present.leave here, rfl, ?_, fun a => ?_, fun a => ?_, fun ok => ?_⟩
  · exact (World.publish_visits ..).trans
      (congrArg (· ++ _) (World.perform_visits r.world (.remove c.player)))
  · show (r.world.remove c.player).2.store.endpoint? a = _
    split
    · next ha =>
      rw [ha]
      exact World.remove_endpoint? ok.opened (contains_of_endpoint? held) notRoot
    · next ha => exact alone.endpoint? ha
  · exact World.perform_shut r.world (.remove c.player)
  · exact (World.perform_linked ok (.remove c.player)).1

end Realm

namespace Server

/-- When the client of an endpoint goes, no other player does. -/
def PartsAlone (s : Server) (endpoint : Endpoint) : Prop :=
  ∀ player, s.realm.clients.player? endpoint = some player → s.realm.world.Spares player

/-- Nobody else has players come or go: neither what is asked of the world, nor those who watch for
the end of a player. -/
def Op.Undisturbed (s : Server) : Op → Prop
  | .world op => ∀ a, (s.realm.world.perform op).store.endpoint? a = s.realm.store.endpoint? a
  | .disconnect endpoint _ => s.PartsAlone endpoint
  | .receive endpoint opening _ _ => isFarewell opening → s.PartsAlone endpoint
  | _ => True

def Undisturbed : Server → List Op → Prop
  | _, [] => True
  | s, op :: ops => op.Undisturbed s ∧ Undisturbed (s.perform op) ops

variable {s : Server}

theorem undisturbed_of_own (bare : s.realm.world.Bare) {ops : List Op} (own : ∀ op ∈ ops, op.isOwn) :
    Undisturbed s ops := by
  induction ops generalizing s with
  | nil => trivial
  | cons op ops ih =>
    have first := own op List.mem_cons_self
    have alone (endpoint) : s.PartsAlone endpoint := fun player _ => (bare.remove player).2
    refine ⟨?_, ih (perform_bare bare first) fun op h => own op (List.mem_cons_of_mem _ h)⟩
    cases op with
    | receive endpoint opening => exact fun _ => alone endpoint
    | disconnect endpoint => exact alone endpoint
    | world op => cases first
    | _ => trivial

theorem disconnect_accord (ok : s.realm.Accord) {endpoint : Endpoint} (alone : s.PartsAlone endpoint)
    (reason : QuitReason) : (s.disconnect endpoint reason).2.realm.Accord := by
  unfold disconnect
  dsimp only
  cases here : s.realm.clients.find? endpoint with
  | none => exact ok
  | some id =>
    obtain ⟨c, known, there, connected⟩ := ok.present endpoint id here
    dsimp only
    rw [known, Clients.disconnect_connected known connected]
    have guest := Clients.player?_of_find? here known
    exact ok.of_departure guest (ok.departure here known (alone c.player guest) reason)

theorem clientFor_accord (ok : s.realm.Accord) (endpoint : Endpoint) :
    (s.clientFor endpoint).2.realm.Accord := by
  rcases clientFor_cases s endpoint with
    ⟨id, _, h⟩ | ⟨absent, ⟨err, w, made, h⟩ | ⟨player, w, allowance, made, h⟩⟩ <;> rw [h]
  · exact ok
  · obtain ⟨refused, rfl⟩ := World.insert_performs made
    exact ok.of_aside (.world (.store _) (insert_refused refused))
  · exact ok.of_arrival (Realm.arrival absent made _)

theorem receive_accord (ok : s.realm.Accord) {endpoint : Endpoint} {opening : UInt8}
    (alone : isFarewell opening → s.PartsAlone endpoint) (payload : List UInt8)
    (latency : Option UInt32) : (s.receive endpoint opening payload latency).realm.Accord := by
  have welcomed := clientFor_accord ok endpoint
  rcases receive_cases s endpoint opening payload latency with
    ⟨realm, _⟩ | ⟨farewell, reason, h⟩ | ⟨_, ⟨err, h⟩ | ⟨kind, id, u, v, _, h, aside, _, _, taken⟩⟩
  · rwa [realm]
  · rw [h]
    exact disconnect_accord ok (alone farewell) reason
  · rwa [h] at welcomed
  · rw [h] at welcomed
    rw [taken]
    exact welcomed.of_aside (aside.trans (accept_aside v id endpoint kind payload))

theorem perform_accord (ok : s.realm.Accord) {op : Op} (calm : op.Undisturbed s) :
    (s.perform op).realm.Accord := by
  cases op with
  | receive endpoint opening payload latency => exact receive_accord ok calm payload latency
  | disconnect endpoint reason => exact disconnect_accord ok calm reason
  | take kind shard => exact ok.of_aside (strokes_aside (take_stroke s kind shard) .refl)
  | serve kind shard => exact ok.of_aside (strokes_aside (serve_stroke s kind shard) .refl)
  | run => exact ok.of_aside (strokes_aside s.run_strokes .refl)
  | periodicPass => exact ok.of_aside (strokes_aside s.periodicPass_strokes .runPass)
  | register kind handler config | stop kind | shutdown => exact ok
  | refill id allowance => exact ok.of_aside (.modify s.realm id fun _ => rfl)
  | world op => exact ok.of_aside (.world op calm)

theorem performAll_accord (ok : s.realm.Accord) {ops : List Op} (calm : Undisturbed s ops) :
    (s.performAll ops).realm.Accord := by
  induction ops generalizing s with
  | nil => exact ok
  | cons op ops ih => exact ih (perform_accord ok calm.1) calm.2

theorem start_accord (settings : Settings) : (start settings).realm.Accord where
  present _ _ found := by cases found
  stays _ := .away
  players a endpoint := by
    have nobody : (start settings).realm.store.endpoint? a = none := by
      show (withCellSize settings.cellSize).endpoint? a = none
      unfold endpoint? withCellSize
      rw [find?_withRoot]
      split <;> rfl
    rw [nobody]
    exact iff_of_false nofun nofun
  dropped := rfl
  opened := (World.fresh_settled settings.cellSize (.counter 1) ⟨0⟩).opened
  linked := Linked.withRoot settings.cellSize (.counter 1) ⟨0⟩

theorem start_bare (settings : Settings) : (start settings).realm.world.Bare where
  zones := rfl
  watchers id l hl := by
    have hl : (withCellSize settings.cellSize).watchers? id = some l := hl
    unfold watchers? withCellSize withRoot at hl
    dsimp only at hl
    rw [Table.find?_insert] at hl
    split at hl
    · exact (Option.some.inj hl).symm
    · cases hl

def player (s : Server) (endpoint : Endpoint) : ElementId :=
  (s.realm.clients.player? endpoint).getD .invalid

/-- Who is in the server, as the registry, the world, the events and the transport have it. -/
structure Attended (s : Server) : Prop where
  stays : ∀ endpoint, Stays endpoint (s.realm.world.visitsOf endpoint)
    (s.realm.clients.player? endpoint)
  registered : ∀ endpoint, s.realm.clients.find? endpoint ≠ none ↔
    ∃ player, (s.realm.world.visitsOf endpoint).getLast? = some (.came endpoint player)
  connected : ∀ endpoint id, s.realm.clients.find? endpoint = some id →
    s.realm.clients.isConnected id
  bijective : Set.BijOn s.player {endpoint | s.realm.clients.find? endpoint ≠ none}
    {a | s.realm.store.type? a = some .player}
  carried : ∀ endpoint, s.realm.clients.find? endpoint ≠ none →
    s.realm.store.endpoint? (s.player endpoint) = some endpoint
  dropped : s.realm.outbox.dropped = s.realm.world.visits.filterMap (·.departed?)
  barren : ∀ endpoint opening payload latency, s.heeds opening = false →
    Barren s (s.receive endpoint opening payload latency)

theorem attended (ok : s.realm.Accord) : s.Attended := by
  have there (endpoint) : s.realm.clients.find? endpoint ≠ none ↔
      ∃ player, s.realm.clients.player? endpoint = some player := by
    rw [← Option.isSome_iff_exists, ok.present.player?_isSome, Option.isSome_iff_ne_none]
  have holds {endpoint player} (h : s.realm.clients.player? endpoint = some player) :
      s.player endpoint = player ∧ s.realm.store.endpoint? player = some endpoint :=
    ⟨by rw [Server.player, h]; rfl, (ok.players ..).mpr h⟩
  refine ⟨ok.stays, fun endpoint => ?_, fun endpoint id found => ?_, ⟨?_, ?_, ?_⟩, ?_, ok.dropped,
    fun endpoint _ payload latency ignored => receive_barren ignored endpoint payload latency⟩
  · rw [there]
    exact exists_congr fun player => ((ok.stays endpoint).last player).symm
  · obtain ⟨c, known, _, connected⟩ := ok.present endpoint id found
    simpa [Clients.isConnected, known] using connected
  · intro endpoint here
    obtain ⟨player, h⟩ := (there endpoint).mp here
    exact endpoint?_isSome.mp ⟨endpoint, (holds h).1 ▸ (holds h).2⟩
  · intro a ha b hb same
    obtain ⟨p, hp⟩ := (there a).mp ha
    obtain ⟨q, hq⟩ := (there b).mp hb
    have one : p = q := (holds hp).1.symm.trans (same.trans (holds hq).1)
    subst one
    exact Option.some.inj ((holds hp).2.symm.trans (holds hq).2)
  · intro a live
    obtain ⟨endpoint, held⟩ := endpoint?_isSome.mpr live
    have h := (ok.players a endpoint).mp held
    exact ⟨endpoint, (there endpoint).mpr ⟨a, h⟩, (holds h).1⟩
  · intro endpoint here
    obtain ⟨player, h⟩ := (there endpoint).mp here
    rw [(holds h).1]
    exact (holds h).2

/-- In every run, unless others have players come or go: for each endpoint it is told in turn that a
client came and that it left, with the same player. Those who came last and did not leave are the ones
registered, and all of them are connected; their players are the players in the world, one for each,
and have their endpoints. The transport was told to let go of each who left, once. Packets of unknown
kinds, farewells and packets without a handler never create a client or an element. A run in which
nobody else has a hand is never disturbed. -/
theorem performAll_attended (settings : Settings) (ops : List Op) :
    (Undisturbed (start settings) ops → ((start settings).performAll ops).Attended) ∧
      ((∀ op ∈ ops, op.isOwn) → Undisturbed (start settings) ops) :=
  ⟨fun calm => attended (performAll_accord (start_accord settings) calm),
    undisturbed_of_own (start_bare settings)⟩

/-- Somebody comes, is heard, quits twice and comes back; somebody else comes and is let go. Packets
of no kind and of a kind without a handler are sent in between, and from where nobody came. -/
def visitors : List Op :=
  [.receive ⟨5⟩ 0x22 [] none, .receive ⟨5⟩ 0x21 [1, 2] (some 40), .receive ⟨6⟩ 0x20 [] none,
    .take .cameraSync 1, .serve .cameraSync 1, .receive ⟨5⟩ 0x12 [] none, .run,
    .receive ⟨5⟩ 0x10 [] none, .receive ⟨7⟩ 0xee [] none, .receive ⟨7⟩ 0x24 [] none,
    .receive ⟨5⟩ 0x30 [] none, .periodicPass, .disconnect ⟨6⟩ .timeout, .disconnect ⟨6⟩ .quit]

theorem visitors_attended :
    let s := (start {}).performAll visitors
    Undisturbed (start {}) visitors ∧ s.Attended ∧
      s.realm.world.visits =
        [.came ⟨5⟩ ⟨1⟩, .came ⟨6⟩ ⟨2⟩, .left ⟨5⟩ ⟨1⟩, .came ⟨5⟩ ⟨3⟩, .left ⟨6⟩ ⟨2⟩] ∧
      s.realm.outbox.dropped = [⟨5⟩, ⟨6⟩] ∧ s.realm.clients.player? ⟨5⟩ = some ⟨3⟩ ∧
      s.realm.clients.find? ⟨6⟩ = none ∧ s.realm.store.type? ⟨3⟩ = some .player ∧ s.unknown = 2 := by
  intro s
  obtain ⟨attended, own⟩ := performAll_attended {} visitors
  have calm : Undisturbed (start {}) visitors := own (by decide)
  have told : s.realm.world.visits =
      [.came ⟨5⟩ ⟨1⟩, .came ⟨6⟩ ⟨2⟩, .left ⟨5⟩ ⟨1⟩, .came ⟨5⟩ ⟨3⟩, .left ⟨6⟩ ⟨2⟩] := by decide +kernel
  have dropped : s.realm.outbox.dropped = [⟨5⟩, ⟨6⟩] := by
    rw [(attended calm).dropped, told]
    rfl
  exact ⟨calm, attended calm, told, dropped, by decide +kernel, by decide +kernel, by decide +kernel,
    by decide +kernel⟩

end Server
end SharedWorld
