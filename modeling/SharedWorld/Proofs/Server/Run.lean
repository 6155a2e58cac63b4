import SharedWorld.Proofs.Server.Workers

/-! What can happen to a server. Its clients send packets or are let go, its workers do their work, and
the queues and the world may be changed by others; all of that in any order. -/
namespace SharedWorld
open Store

namespace Server

/-- Everything that can happen to a server. Others ask things of its world, and as time passes a
client may send again. -/
inductive Op
  | receive (endpoint : Endpoint) (opening : UInt8) (payload : List UInt8) (latency : Option UInt32)
  | disconnect (endpoint : Endpoint) (reason : QuitReason)
  | take (kind : PacketKind) (shard : Nat)
  | serve (kind : PacketKind) (shard : Nat)
  | run
  | periodicPass
  | register (kind handler : PacketKind) (config : QueueConfig)
  | stop (kind : PacketKind)
  | shutdown
  | refill (id : ClientId) (allowance : Allowance)
  | world (op : World.Op)

def withDispatcher (s : Server) (dispatcher : Dispatcher PacketKind Parcel) : Server :=
  { s with dispatcher }

def withRealm (s : Server) (realm : Realm) : Server := { s with realm }

def perform (s : Server) : Op → Server
  | .receive endpoint opening payload latency => s.receive endpoint opening payload latency
  | .disconnect endpoint reason => (s.disconnect endpoint reason).2
  | .take kind shard =>
    match s.dispatcher.bindings.find? kind with
    | none => s
    | some b => s.withDispatcher (s.dispatcher.setQueue kind (b.queue.take shard))
  | .serve kind shard =>
    match s.dispatcher.bindings.find? kind with
    | none => s
    | some b =>
      let (queue, realm) := b.queue.serve (handler b.handler) shard s.realm
      (s.withDispatcher (s.dispatcher.setQueue kind queue)).withRealm realm
  | .run => s.run
  | .periodicPass => s.periodicPass
  | .register kind handler config => s.withDispatcher (s.dispatcher.register kind handler config)
  | .stop kind => s.withDispatcher (s.dispatcher.stop kind)
  | .shutdown => s.shutdown
  | .refill id allowance =>
    s.withRealm { s.realm with clients := s.realm.clients.modify id ({ · with allowance }) }
  | .world op => s.withRealm { s.realm with world := s.realm.world.perform op }

def performAll (s : Server) (ops : List Op) : Server := ops.foldl perform s

def isFarewell (opening : UInt8) : Bool := (PacketKind.ofByte? opening).any (·.isLifecycle)

variable {s t : Server}

theorem accept_aside (s : Server) (id : ClientId) (endpoint : Endpoint) (kind : PacketKind)
    (payload : List UInt8) : Realm.Aside s.realm (s.accept id endpoint kind payload).realm := by
  have spent : Realm.Aside s.realm
      { s.realm with clients := (s.realm.clients.spend id).2 } := by
    unfold Clients.spend
    split
    · exact .modify s.realm id fun _ => rfl
    · exact .refl s.realm
  unfold accept
  dsimp only
  split
  · exact spent
  · split <;> exact spent

theorem accept_world (s : Server) (id : ClientId) (endpoint : Endpoint) (kind : PacketKind)
    (payload : List UInt8) : (s.accept id endpoint kind payload).realm.world = s.realm.world := by
  unfold accept
  dsimp only
  split
  · rfl
  · split <;> rfl

theorem handler_clients (kind : PacketKind) (e : QueueEntry Parcel) (r : Realm) :
    (handler kind e r).2.clients = r.clients := by
  unfold handler
  split
  · rfl
  · next sender _ => exact (Realm.take_discreet kind r sender e.item.payload).clients

/-- Whoever comes to an endpoint is the client that is registered there, or else a new one with a new
player, unless none can be made. -/
theorem clientFor_cases (s : Server) (endpoint : Endpoint) :
    (∃ id, s.realm.clients.find? endpoint = some id ∧ s.clientFor endpoint = (.ok id, s)) ∨
      s.realm.clients.find? endpoint = none ∧
        ((∃ err w, s.realm.world.insert { kind := .player { endpoint } } = (.error err, w) ∧
          s.clientFor endpoint = (.error err, s.withRealm { s.realm with world := w })) ∨
        ∃ player w allowance,
          s.realm.world.insert { kind := .player { endpoint } } = (.ok player, w) ∧
          let (id, clients) := s.realm.clients.enlist { endpoint, player, allowance }
          s.clientFor endpoint = (.ok id, s.withRealm
            (({ s.realm with world := w, clients } : Realm).publish
              (.clientConnected endpoint player)))) := by
  cases found : s.realm.clients.find? endpoint with
  | some id => exact .inl ⟨id, rfl, by simp only [clientFor, found]⟩
  | none =>
    refine .inr ⟨rfl, ?_⟩
    cases made : s.realm.world.insert { kind := .player { endpoint } } with
    | mk answer w =>
      cases answer with
      | error err =>
        refine .inl ⟨err, w, rfl, ?_⟩
        simp only [clientFor, found, made]
        rfl
      | ok player =>
        refine .inr ⟨player, w, .ofRate s.settings.inboundRate, rfl, ?_⟩
        simp only [clientFor, found, made]
        rfl

theorem accept_cases (s : Server) (id : ClientId) (endpoint : Endpoint) (kind : PacketKind)
    (payload : List UInt8) : Realm.Aside s.realm (s.accept id endpoint kind payload).realm ∧
      (s.accept id endpoint kind payload).realm.world = s.realm.world ∧
      ((s.accept id endpoint kind payload).dispatcher = s.dispatcher ∨
        (s.accept id endpoint kind payload).dispatcher =
          (s.dispatcher.enqueue kind endpoint ⟨id, payload⟩).2) := by
  refine ⟨accept_aside .., accept_world .., ?_⟩
  unfold accept
  dsimp only
  split
  · exact .inl rfl
  · split <;> exact .inr rfl

/-- A packet comes to nothing, makes its sender leave, finds no client and none can be made, or is
accepted from its client. -/
theorem receive_cases (s : Server) (endpoint : Endpoint) (opening : UInt8) (payload : List UInt8)
    (latency : Option UInt32) :
    let t := s.receive endpoint opening payload latency
    (t.realm = s.realm ∧ t.dispatcher = s.dispatcher) ∨
      (isFarewell opening ∧ ∃ reason, t = (s.disconnect endpoint reason).2) ∨
      ¬ isFarewell opening ∧ ((∃ err, s.clientFor endpoint = (.error err, t)) ∨
        ∃ (kind : PacketKind) (id : ClientId) (u v : Server),
          PacketKind.ofByte? opening = some kind ∧ s.clientFor endpoint = (.ok id, u) ∧
          Realm.Aside u.realm v.realm ∧ v.realm.world = u.realm.world ∧
          v.dispatcher = u.dispatcher ∧ t = v.accept id endpoint kind payload) := by
  intro t
  cases known : PacketKind.ofByte? opening with
  | none =>
    have ignored : t = { s with unknown := s.unknown + 1 } := by
      simp only [t, receive, known]
    exact .inl (ignored ▸ ⟨rfl, rfl⟩)
  | some kind =>
    have farewell : isFarewell opening = kind.isLifecycle := by simp [isFarewell, known]
    rw [farewell]
    cases lifecycle : kind.isLifecycle with
    | true =>
      refine .inr (.inl ⟨rfl, quitReason kind, ?_⟩)
      simp only [t, receive, known, lifecycle, if_true]
    | false =>
      cases registered : s.dispatcher.isRegistered kind with
      | false =>
        have ignored : t = { s with unknown := s.unknown + 1 } := by
          simp [t, receive, known, lifecycle, registered]
        exact .inl (ignored ▸ ⟨rfl, rfl⟩)
      | true =>
        refine .inr (.inr ⟨nofun, ?_⟩)
        cases found : s.clientFor endpoint with
        | mk answer u =>
          cases answer with
          | error err =>
            have away : t = u := by simp [t, receive, known, lifecycle, registered, found]
            exact .inl ⟨err, by rw [away]⟩
          | ok id =>
            refine .inr ?_
            cases latency with
            | none =>
              refine ⟨kind, id, u, u, rfl, rfl, .refl u.realm, rfl, rfl, ?_⟩
              simp [t, receive, known, lifecycle, registered, found]
            | some latency =>
              refine ⟨kind, id, u,
                { u with realm := { u.realm with clients := u.realm.clients.setLatency id latency } },
                rfl, rfl, .modify u.realm id fun _ => rfl, rfl, rfl, ?_⟩
              simp [t, receive, known, lifecycle, registered, found]

theorem disconnect_cases (present : s.realm.clients.Present) (endpoint : Endpoint)
    (reason : QuitReason) :
    (s.realm.clients.find? endpoint = none ∧ (s.disconnect endpoint reason).2 = s) ∨
      ∃ id c, s.realm.clients.find? endpoint = some id ∧ s.realm.clients.get? id = some c ∧
        (s.disconnect endpoint reason).2.realm.clients =
          (s.realm.clients.disconnect id).2.remove endpoint ∧
        (s.disconnect endpoint reason).2.realm.store = (s.realm.world.remove c.player).2.store ∧
        (s.disconnect endpoint reason).2.dispatcher = s.dispatcher := by
  unfold disconnect
  dsimp only
  cases here : s.realm.clients.find? endpoint with
  | none => exact .inl ⟨rfl, rfl⟩
  | some id =>
    obtain ⟨c, known, _, connected⟩ := present endpoint id here
    dsimp only
    rw [known, Clients.disconnect_connected known connected]
    exact .inr ⟨id, c, rfl, known, rfl, rfl, rfl⟩

theorem run_strokes (s : Server) : Dispatcher.Strokes handler id (s.dispatcher, s.realm)
    (s.run.dispatcher, s.run.realm) := Dispatcher.run_strokes ..

theorem periodicPass_strokes (s : Server) : Dispatcher.Strokes handler
    (fun r => { r with world := r.world.runPass.2 }) (s.dispatcher, s.realm)
    (s.periodicPass.dispatcher, s.periodicPass.realm) := Dispatcher.runWithGuest_strokes ..

theorem take_stroke (s : Server) (kind : PacketKind) (shard : Nat) :
    Dispatcher.Strokes handler id (s.dispatcher, s.realm)
      ((s.perform (.take kind shard)).dispatcher, (s.perform (.take kind shard)).realm) := by
  unfold perform
  dsimp only
  split
  · exact .refl
  · next bound => exact .single (.take bound shard)

theorem serve_stroke (s : Server) (kind : PacketKind) (shard : Nat) :
    Dispatcher.Strokes handler id (s.dispatcher, s.realm)
      ((s.perform (.serve kind shard)).dispatcher, (s.perform (.serve kind shard)).realm) := by
  unfold perform
  dsimp only
  split
  · exact .refl
  · next bound => exact .single (.serve bound shard)

theorem strokes_aside {errand : Realm → Realm} {x y : Dispatcher PacketKind Parcel × Realm}
    (h : Dispatcher.Strokes handler errand x y) (guest : ∀ r, Realm.Aside r (errand r)) :
    Realm.Aside x.2 y.2 :=
  h.lift .refl .trans handler_aside guest

theorem strokes_clients {errand : Realm → Realm}
    {x y : Dispatcher PacketKind Parcel × Realm} (h : Dispatcher.Strokes handler errand x y)
    (guest : ∀ r, (errand r).clients = r.clients) : y.2.clients = x.2.clients :=
  h.lift (R := fun (r u : Realm) => u.clients = r.clients) (fun _ => rfl) (fun h h' => h'.trans h)
    handler_clients guest

/-- The packet is of a kind that has a handler, and no farewell. -/
def heeds (s : Server) (opening : UInt8) : Bool :=
  (PacketKind.ofByte? opening).any fun kind => !kind.isLifecycle && s.dispatcher.isRegistered kind

/-- From `s` to `t` no client and no element is created. -/
structure Barren (s t : Server) : Prop where
  known : t.realm.clients.known.length = s.realm.clients.known.length
  registered : ∀ endpoint, t.realm.clients.find? endpoint ≠ none →
    s.realm.clients.find? endpoint ≠ none
  elements : ∀ a, t.realm.store.contains a → s.realm.store.contains a

theorem Barren.of_realm {t : Server} (same : t.realm = s.realm) : Barren s t :=
  ⟨by simp only [same], by simp only [same, imp_self, implies_true], by
    simp only [same, imp_self, implies_true]⟩

theorem disconnect_barren (s : Server) (endpoint : Endpoint) (reason : QuitReason) :
    Barren s (s.disconnect endpoint reason).2 := by
  unfold disconnect
  dsimp only
  split
  · exact .of_realm rfl
  next id here =>
  split
  · next client clients known gone =>
    have left : clients = (s.realm.clients.disconnect id).2 := (congrArg Prod.snd gone).symm
    refine ⟨?_, fun other still => ?_, fun a => ?_⟩
    · subst left
      exact List.length_modify ..
    · subst left
      intro absent
      refine still ((Clients.find?_remove ..).trans ?_)
      split
      · rfl
      · exact absent
    · exact (World.removeWithin_removals _ client.player s.realm.world).1.contains
  · exact .of_realm rfl

theorem receive_barren {opening : UInt8} (ignored : s.heeds opening = false) (endpoint : Endpoint)
    (payload : List UInt8) (latency : Option UInt32) :
    Barren s (s.receive endpoint opening payload latency) := by
  unfold receive
  unfold heeds at ignored
  cases known : PacketKind.ofByte? opening with
  | none => exact .of_realm rfl
  | some kind =>
    rw [known, Option.any_some] at ignored
    dsimp only
    cases farewell : kind.isLifecycle with
    | true => exact disconnect_barren s endpoint _
    | false =>
      rw [farewell] at ignored
      have unbound : s.dispatcher.isRegistered kind = false := ignored
      simp only [unbound]
      exact .of_realm rfl

/-- The server or one of its clients does this; nobody else has a hand in it. -/
def Op.isOwn : Op → Bool
  | .world _ => false
  | _ => true

theorem disconnect_bare (bare : s.realm.world.Bare) (endpoint : Endpoint) (reason : QuitReason) :
    (s.disconnect endpoint reason).2.realm.world.Bare := by
  unfold disconnect
  dsimp only
  split
  · exact bare
  · split
    · next client _ _ _ => exact (bare.remove client.player).1.publish _
    · exact bare

theorem clientFor_bare (bare : s.realm.world.Bare) (endpoint : Endpoint) :
    (s.clientFor endpoint).2.realm.world.Bare := by
  have inserted : (s.realm.world.insert { kind := .player { endpoint } }).2.Bare :=
    bare.stored (.insert { kind := .player { endpoint } })
  rcases clientFor_cases s endpoint with
    ⟨id, _, h⟩ | ⟨_, ⟨err, w, made, h⟩ | ⟨player, w, allowance, made, h⟩⟩ <;> rw [h]
  · exact bare
  · rwa [made] at inserted
  · rw [made] at inserted
    exact inserted.publish _

theorem receive_bare (bare : s.realm.world.Bare) (endpoint : Endpoint) (opening : UInt8)
    (payload : List UInt8) (latency : Option UInt32) :
    (s.receive endpoint opening payload latency).realm.world.Bare := by
  have welcomed := clientFor_bare bare endpoint
  rcases receive_cases s endpoint opening payload latency with
    ⟨realm, _⟩ | ⟨_, reason, h⟩ | ⟨_, ⟨err, h⟩ | ⟨kind, id, u, v, _, h, _, world, _, taken⟩⟩
  · rwa [realm]
  · rw [h]
    exact disconnect_bare bare endpoint reason
  · rwa [h] at welcomed
  · rw [h] at welcomed
    rwa [taken, accept_world, world]

theorem perform_bare (bare : s.realm.world.Bare) {op : Op} (own : op.isOwn) :
    (s.perform op).realm.world.Bare := by
  have worked {errand : Realm → Realm} {t : Server} (strokes : Dispatcher.Strokes handler errand
      (s.dispatcher, s.realm) (t.dispatcher, t.realm))
      (guest : ∀ r, r.world.Bare → (errand r).world.Bare) : t.realm.world.Bare :=
    strokes.lift (R := fun r u => r.world.Bare → u.world.Bare) (fun _ => id) (fun h h' => h' ∘ h)
      handler_bare guest bare
  cases op with
  | receive endpoint opening payload latency => exact receive_bare bare endpoint opening payload latency
  | disconnect endpoint reason => exact disconnect_bare bare endpoint reason
  | take kind shard => exact worked (take_stroke s kind shard) fun _ => id
  | serve kind shard => exact worked (serve_stroke s kind shard) fun _ => id
  | run => exact worked s.run_strokes fun _ => id
  | periodicPass =>
    refine worked s.periodicPass_strokes fun r bare => ?_
    dsimp only
    rwa [bare.runPass]
  | register kind handler config | stop kind | shutdown | refill id allowance => exact bare
  | world op => cases own

end Server
end SharedWorld
