import SharedWorld.Proofs.Server.Followed

/-! The last word of a player on foot. Whatever the others do and in whatever order the workers work,
a player who stays and is tied to nothing ends up as its last packet says that was taken into the
queue and can be read. -/
namespace SharedWorld
open Store

namespace Server

def accepted (s : Server) (kind : PacketKind) : Nat :=
  (s.dispatcher.bindings.find? kind).elim 0 (·.queue.sequence)

/-- The packet on foot from an endpoint that an operation has its queue accept. -/
def admits (s : Server) (endpoint : Endpoint) (op : Op) : List (List UInt8) :=
  match op with
  | .receive sender opening payload _ =>
    if sender = endpoint ∧ PacketKind.ofByte? opening = some .playerPureSync ∧
      s.accepted .playerPureSync < (s.perform op).accepted .playerPureSync then [payload] else []
  | _ => []

def admitted (endpoint : Endpoint) : Server → List Op → List (List UInt8)
  | _, [] => []
  | s, op :: ops => s.admits endpoint op ++ admitted endpoint (s.perform op) ops

/-- The endpoint sends no packet in a vehicle, packets on foot keep their handler and no kind gets one
that is meant for another, and what is asked of the world does not change what the player says. -/
def Op.Refrains (endpoint : Endpoint) (s : Server) : Op → Prop
  | .receive sender opening _ _ =>
    sender = endpoint → PacketKind.ofByte? opening ≠ some .vehiclePureSync
  | .register kind handler _ => handler = kind ∧ kind ≠ .playerPureSync
  | .world op => ∀ player ∈ s.realm.clients.player? endpoint,
    (s.realm.world.perform op).store.sheet? player = s.realm.store.sheet? player
  | _ => True

/-- An operation that leaves a player on foot to speak for itself: its client stays, and the player
is there and tied to nothing. -/
structure Op.Lets (endpoint : Endpoint) (s : Server) (op : Op) : Prop where
  refrains : op.Refrains endpoint s
  stays : ∀ id ∈ s.realm.clients.find? endpoint,
    (s.perform op).realm.clients.find? endpoint = some id
  loose : ∀ player ∈ (s.perform op).realm.clients.player? endpoint,
    (s.perform op).realm.store.Loose player

/-- Throughout a run the player of an endpoint is left to speak for itself. -/
def Steady (endpoint : Endpoint) : Server → List Op → Prop
  | _, [] => True
  | s, op :: ops => op.Lets endpoint s ∧ Steady endpoint (s.perform op) ops

instance (endpoint : Endpoint) (s : Server) : ∀ op : Op, Decidable (op.Refrains endpoint s)
  | .receive .. => inferInstanceAs (Decidable (_ → _ ≠ _))
  | .register .. => inferInstanceAs (Decidable (_ = _ ∧ _ ≠ _))
  | .world _ => inferInstanceAs (Decidable (∀ _ ∈ s.realm.clients.player? endpoint, _ = _))
  | .disconnect .. | .take .. | .serve .. | .run | .periodicPass | .stop _ | .shutdown
  | .refill .. => .isTrue trivial

instance (endpoint : Endpoint) (s : Server) (op : Op) : Decidable (op.Lets endpoint s) :=
  decidable_of_iff (op.Refrains endpoint s ∧
      (∀ id ∈ s.realm.clients.find? endpoint,
        (s.perform op).realm.clients.find? endpoint = some id) ∧
      ∀ player ∈ (s.perform op).realm.clients.player? endpoint,
        (s.perform op).realm.store.Loose player)
    ⟨fun h => ⟨h.1, h.2.1, h.2.2⟩, fun h => ⟨h.refrains, h.stays, h.loose⟩⟩

instance steadyDecidable (endpoint : Endpoint) : ∀ s ops, Decidable (Steady endpoint s ops)
  | _, [] => .isTrue trivial
  | s, op :: ops =>
    have := steadyDecidable endpoint (s.perform op) ops
    inferInstanceAs (Decidable (_ ∧ _))

/-- Nobody is there for the endpoint and nothing was heard, or a player is and was. -/
inductive Heard (endpoint : Endpoint) (words : List (List UInt8)) (s : Server) : Prop
  | away (absent : s.realm.clients.find? endpoint = none) (none : words = [])
  | here {id : ClientId} {player : ElementId}
      (followed : Followed endpoint id player words s.dispatcher s.realm)

variable {s t : Server} {endpoint : Endpoint} {words : List (List UInt8)}

theorem admits_of_dispatcher {op : Op} (same : (s.perform op).dispatcher = s.dispatcher) :
    s.admits endpoint op = [] := by
  cases op with
  | receive sender opening payload latency =>
    refine if_neg fun grown => ?_
    unfold accepted at grown
    rw [same] at grown
    exact Nat.lt_irrefl _ grown.2.2
  | _ => rfl

theorem accepted_rebound {kind : PacketKind} {b : Binding PacketKind Parcel}
    (rebound : s.dispatcher.Rebound t.dispatcher kind b) (k : PacketKind) :
    t.accepted k = if k = kind then b.queue.sequence else s.accepted k := by
  unfold accepted
  rw [rebound]
  split <;> rfl

theorem accepted_of_bound {kind : PacketKind} {b : Binding PacketKind Parcel}
    (bound : s.dispatcher.bindings.find? kind = some b) : s.accepted kind = b.queue.sequence := by
  rw [accepted, bound]
  rfl

section Rebound
variable {kind : PacketKind} {b : Binding PacketKind Parcel} {q : Queue Parcel}
  {e : QueueEntry Parcel} (bound : s.dispatcher.bindings.find? kind = some b)
  (rebound : s.dispatcher.Rebound t.dispatcher kind { b with queue := q })
include bound rebound

theorem accepted_shed (change : Queue.Shed b.queue q) : t.accepted = s.accepted := by
  funext k
  rw [accepted_rebound rebound]
  split
  · next here => exact change.sequence.trans (here ▸ accepted_of_bound bound).symm
  · rfl

theorem accepted_grown (change : Queue.Grown b.queue q e) :
    t.accepted kind = s.accepted kind + 1 := by
  rw [accepted_rebound rebound, if_pos rfl, accepted_of_bound bound]
  exact change.sequence

end Rebound

theorem accept_faithful (orderly : s.dispatcher.Orderly) (faithful : s.dispatcher.Faithful)
    (id : ClientId) (sender : Endpoint) (kind : PacketKind) (payload : List UInt8) :
    (s.accept id sender kind payload).dispatcher.Faithful := by
  obtain ⟨_, _, same | offered⟩ := accept_cases s id sender kind payload
  · rwa [same]
  · rw [offered]
    rcases Dispatcher.enqueue_change orderly kind sender (⟨id, payload⟩ : Parcel) with
      ⟨_, bindings⟩ | ⟨b, q, bound, rebound, _⟩
    · exact faithful.congr fun k => by rw [bindings]
    · exact faithful.rebound bound rebound

theorem Followed.player? {id : ClientId} {player : ElementId} {d : Dispatcher PacketKind Parcel}
    {r : Realm} (h : Followed endpoint id player words d r) :
    r.clients.player? endpoint = some player := by
  rw [Clients.player?_eq_bind, h.registered]
  exact h.plays

namespace Heard

theorem imp (heard : Heard endpoint words s)
    (away : s.realm.clients.find? endpoint = none → t.realm.clients.find? endpoint = none)
    (here : ∀ {id player}, Followed endpoint id player words s.dispatcher s.realm →
      Followed endpoint id player words t.dispatcher t.realm) : Heard endpoint words t := by
  cases heard with
  | away absent none => exact .away (away absent) none
  | here followed => exact .here (here followed)

theorem strokes (heard : Heard endpoint words s) (ok : s.Peopled) (faithful : s.dispatcher.Faithful)
    {errand : Realm → Realm}
    (guest : ∀ r, (errand r).clients = r.clients ∧ Alike r.store (errand r).store)
    (strokes : Dispatcher.Strokes handler errand (s.dispatcher, s.realm) (t.dispatcher, t.realm)) :
    t.dispatcher.Faithful ∧ Heard endpoint words t := by
  have clients : t.realm.clients = s.realm.clients := strokes_clients strokes fun r => (guest r).1
  have sound := ok.sound faithful
  exact ⟨(sound.strokes guest ok.orderly strokes).faithful, heard.imp (clients ▸ id)
    fun followed => followed.strokes guest ok.orderly sound strokes⟩

theorem disconnect (heard : Heard endpoint words s) (ok : s.Peopled) (sender : Endpoint)
    (reason : QuitReason)
    (stays : ∀ id ∈ s.realm.clients.find? endpoint,
      (s.disconnect sender reason).2.realm.clients.find? endpoint = some id)
    (loose : ∀ player ∈ (s.disconnect sender reason).2.realm.clients.player? endpoint,
      (s.disconnect sender reason).2.realm.store.Loose player) :
    (s.disconnect sender reason).2.dispatcher = s.dispatcher ∧
      Heard endpoint words (s.disconnect sender reason).2 := by
  rcases disconnect_cases ok.present sender reason with
    ⟨_, same⟩ | ⟨gone, c, left, _, clients, store, dispatcher⟩
  · exact ⟨by rw [same], same.symm ▸ heard⟩
  refine ⟨dispatcher, ?_⟩
  cases heard with
  | away absent none =>
    refine .away ?_ none
    rw [clients, Clients.find?_remove]
    split
    · rfl
    · exact absent
  | @here id player followed =>
    have registered := (stays id followed.registered).trans followed.registered.symm
    have players (other) : (s.disconnect sender reason).2.realm.clients.playerOf? other =
        s.realm.clients.playerOf? other := by
      rw [clients]
      exact Clients.playerOf?_disconnect _ gone other
    have still : (s.disconnect sender reason).2.realm.store.Loose player := by
      refine loose player ?_
      rw [Clients.player?_eq_bind, registered, followed.registered]
      exact (players id).trans followed.plays
    have removals : Removals s.realm.store (s.realm.world.remove c.player).2.store :=
      (World.removeWithin_removals _ c.player s.realm.world).1
    obtain ⟨e, he, _⟩ := still.find
    have live := contains_iff.mpr ⟨e, he⟩
    refine .here (dispatcher ▸ followed.of_realm registered (players id)
      (fun other => (players other).symm.trans) still ?_)
    rw [store] at live ⊢
    exact removals.sheet? live

theorem clientFor (heard : Heard endpoint words s) (ok : s.Peopled) (sender : Endpoint) :
    (s.clientFor sender).2.dispatcher = s.dispatcher ∧
      Heard endpoint words (s.clientFor sender).2 ∧
      ∀ id, (s.clientFor sender).1 = .ok id →
        (s.clientFor sender).2.realm.clients.find? sender = some id := by
  rcases clientFor_cases s sender with
    ⟨id, here, h⟩ | ⟨absent, ⟨err, w, made, h⟩ | ⟨new, w, allowance, made, h⟩⟩ <;> rw [h]
  · exact ⟨rfl, heard, fun _ given => by cases given; exact here⟩
  · obtain ⟨refused, rfl⟩ := World.insert_performs made
    refine ⟨rfl, ?_, nofun⟩
    have same := insert_refused_find? refused
    cases heard with
    | away absent none => exact .away absent none
    | @here _ player followed =>
      exact .here (followed.of_realm rfl rfl (fun _ => id) (followed.loose.of_find (same player))
        (sheet?_congr (same player)))
  · obtain ⟨granted, rfl⟩ := World.insert_performs made
    refine ⟨rfl, ?_, fun _ given => ?_⟩
    · cases heard with
      | away still none =>
        by_cases own : sender = endpoint
        · subst own none
          exact .here <|
            ok.followed (c := { endpoint := sender, player := new, allowance }) granted rfl
        · refine .away (((Clients.find?_enlist ..).trans (if_neg ?_)).trans still) none
          exact fun here => own here.symm
      | here followed =>
        refine .here (followed.enlist (c := { endpoint := sender, player := new, allowance })
          (fun own : sender = endpoint => ?_) granted rfl)
        rw [own, followed.registered] at absent
        cases absent
    · cases given
      exact (Clients.find?_enlist ..).trans (if_pos rfl)

theorem aside (heard : Heard endpoint words s) (aside : Realm.Aside s.realm t.realm)
    (world : t.realm.world = s.realm.world) (same : t.dispatcher = s.dispatcher) :
    Heard endpoint words t :=
  heard.imp (congrArg (·.find? endpoint) aside.registered).trans
    fun followed => same ▸ followed.aside aside world

theorem silent (heard : Heard endpoint words t) (same : t.accepted = s.accepted)
    (sender : Endpoint) (kind : PacketKind) (payload : List UInt8) :
    Heard endpoint (words ++ if sender = endpoint ∧ kind = .playerPureSync ∧
      s.accepted .playerPureSync < t.accepted .playerPureSync then [payload] else []) t := by
  rw [same, if_neg fun own => Nat.lt_irrefl _ own.2.2, List.append_nil]
  exact heard

theorem offer (heard : Heard endpoint words s) (orderly : s.dispatcher.Orderly)
    {sender : Endpoint} {id : ClientId} (here : s.realm.clients.find? sender = some id)
    {kind : PacketKind} (walks : sender = endpoint → kind ≠ .vehiclePureSync)
    {payload : List UInt8} (realm : t.realm = s.realm)
    (offered : t.dispatcher = (s.dispatcher.enqueue kind sender ⟨id, payload⟩).2) :
    Heard endpoint (words ++ if sender = endpoint ∧ kind = .playerPureSync ∧
      s.accepted .playerPureSync < t.accepted .playerPureSync then [payload] else []) t := by
  rcases Dispatcher.enqueue_change orderly kind sender (⟨id, payload⟩ : Parcel) with
    ⟨_, bindings⟩ | ⟨b, q, bound, rebound, shed | grown⟩
  · rw [← offered] at bindings
    refine silent (heard.imp (realm ▸ fun absent => absent) fun followed => realm ▸
      followed.of_bindings fun k => by rw [bindings]) ?_ sender kind payload
    unfold accepted
    rw [bindings]
  · rw [← offered] at rebound
    exact silent (heard.imp (realm ▸ fun absent => absent) fun followed => realm ▸
      followed.shed bound rebound shed) (accepted_shed bound rebound shed) sender kind payload
  rw [← offered] at rebound
  have more := accepted_grown bound rebound grown
  cases heard with
  | away absent none =>
    have foreign : sender ≠ endpoint := fun own => by cases (own ▸ here).symm.trans absent
    rw [if_neg fun own => foreign own.1, List.append_nil]
    exact .away (realm ▸ absent) none
  | @here mine player followed =>
    have told := followed.grown bound rebound grown walks
    have same : sender = endpoint → id = mine := fun own =>
      Option.some.inj (here.symm.trans (own ▸ followed.registered))
    have said : (if kind = .playerPureSync then
        Queue.payloadOf ⟨sender, ⟨id, payload⟩, b.queue.sequence⟩ endpoint mine else []) =
        if sender = endpoint ∧ kind = .playerPureSync ∧
          s.accepted .playerPureSync < t.accepted .playerPureSync then [payload] else [] := by
      by_cases walked : kind = .playerPureSync
      · subst walked
        rw [if_pos rfl, Queue.payloadOf]
        exact if_congr ⟨fun h => ⟨h.1, rfl, by omega⟩, fun h => ⟨h.1, same h.1⟩⟩ rfl rfl
      · rw [if_neg walked, if_neg fun h => walked h.2.1]
    rw [← said]
    exact .here (realm ▸ told)

theorem accept (heard : Heard endpoint words s) (orderly : s.dispatcher.Orderly)
    {sender : Endpoint} {id : ClientId} (here : s.realm.clients.find? sender = some id)
    {kind : PacketKind} (walks : sender = endpoint → kind ≠ .vehiclePureSync)
    (payload : List UInt8) :
    Heard endpoint (words ++ if sender = endpoint ∧ kind = .playerPureSync ∧
      s.accepted .playerPureSync <
        (s.accept id sender kind payload).accepted .playerPureSync then [payload] else [])
      (s.accept id sender kind payload) := by
  obtain ⟨spent, world, same | offered⟩ := accept_cases s id sender kind payload
  · refine silent (heard.aside spent world same) ?_ sender kind payload
    unfold accepted
    rw [same]
  · have charged : Heard endpoint words
        (s.withRealm (s.accept id sender kind payload).realm) := heard.aside spent world rfl
    exact charged.offer orderly ((congrArg (·.find? sender) spent.registered).trans here) walks rfl
      offered

theorem stop (heard : Heard endpoint words s) (ok : s.Peopled) (faithful : s.dispatcher.Faithful)
    (kind : PacketKind) :
    (s.perform (.stop kind)).dispatcher.Faithful ∧
      Heard endpoint words (s.perform (.stop kind)) := by
  cases bound : s.dispatcher.bindings.find? kind with
  | none =>
    have same := Dispatcher.stop_of_unbound bound
    exact ⟨faithful.congr same, heard.imp id fun followed => followed.of_bindings same⟩
  | some b =>
    have rebound := Dispatcher.stop_bindings bound
    exact ⟨faithful.rebound bound rebound, heard.imp id fun followed =>
      followed.shed bound rebound (Queue.stop_shed (ok.orderly kind b bound))⟩

theorem receive (heard : Heard endpoint words s) (ok : s.Peopled) (faithful : s.dispatcher.Faithful)
    {sender : Endpoint} {opening : UInt8} {payload : List UInt8} {latency : Option UInt32}
    (lets : (Op.receive sender opening payload latency).Lets endpoint s) :
    (s.receive sender opening payload latency).dispatcher.Faithful ∧
      Heard endpoint (words ++ s.admits endpoint (.receive sender opening payload latency))
        (s.receive sender opening payload latency) := by
  -- A packet that is not accepted leaves the words as they are.
  have idle (same : (s.receive sender opening payload latency).dispatcher = s.dispatcher)
      (heard : Heard endpoint words (s.receive sender opening payload latency)) :
      (s.receive sender opening payload latency).dispatcher.Faithful ∧
      Heard endpoint (words ++ s.admits endpoint (.receive sender opening payload latency))
        (s.receive sender opening payload latency) := by
    have silent : s.admits endpoint (.receive sender opening payload latency) = [] :=
      admits_of_dispatcher same
    rw [silent, List.append_nil]
    exact ⟨same ▸ faithful, heard⟩
  have welcomed := heard.clientFor ok sender
  rcases receive_cases s sender opening payload latency with
    ⟨realm, dispatcher⟩ | ⟨_, reason, h⟩ |
    ⟨_, ⟨err, h⟩ | ⟨kind, id, u, v, known, h, aside, same, dispatcher, taken⟩⟩
  · exact idle dispatcher (heard.imp (realm ▸ id) fun followed => dispatcher ▸ realm ▸ followed)
  · have stays := lets.stays
    have loose := lets.loose
    unfold perform at stays loose
    dsimp only at stays loose
    rw [h] at stays loose
    obtain ⟨same, still⟩ := heard.disconnect ok sender reason stays loose
    rw [← h] at same still
    exact idle same still
  · rw [h] at welcomed
    exact idle welcomed.1 welcomed.2.1
  · rw [h] at welcomed
    obtain ⟨unchanged, heard, registered⟩ := welcomed
    have greeted : Heard endpoint words v := heard.aside aside same dispatcher
    have unmoved : v.dispatcher = s.dispatcher := dispatcher.trans unchanged
    have here : v.realm.clients.find? sender = some id :=
      (congrArg (·.find? sender) aside.registered).trans (registered id rfl)
    have walks (own : sender = endpoint) : kind ≠ .vehiclePureSync := fun rides =>
      lets.refrains own (rides ▸ known)
    have told := greeted.accept (unmoved ▸ ok.orderly) here walks payload
    have counted : s.accepted .playerPureSync = v.accepted .playerPureSync := by
      unfold accepted
      rw [unmoved]
    rw [admits, perform, taken, known, counted]
    simp only [Option.some_inj]
    exact ⟨accept_faithful (unmoved ▸ ok.orderly) (unmoved ▸ faithful) id sender kind payload, told⟩

theorem perform (heard : Heard endpoint words s) (ok : s.Peopled)
    (faithful : s.dispatcher.Faithful) {op : Op} (lets : op.Lets endpoint s) :
    (s.perform op).dispatcher.Faithful ∧
      Heard endpoint (words ++ s.admits endpoint op) (s.perform op) := by
  have quiet (silent : s.admits endpoint op = [])
      (done : (s.perform op).dispatcher.Faithful ∧ Heard endpoint words (s.perform op)) :
      (s.perform op).dispatcher.Faithful ∧
        Heard endpoint (words ++ s.admits endpoint op) (s.perform op) := by
    rwa [silent, List.append_nil]
  have unmoved (r : Realm) : (id r).clients = r.clients ∧ Alike r.store (id r).store :=
    ⟨rfl, .refl r.store⟩
  cases op with
  | receive sender opening payload latency => exact heard.receive ok faithful lets
  | disconnect sender reason =>
    obtain ⟨same, still⟩ := heard.disconnect ok sender reason lets.stays lets.loose
    exact quiet rfl ⟨same ▸ faithful, still⟩
  | take kind shard =>
    exact quiet rfl (heard.strokes ok faithful unmoved (take_stroke s kind shard))
  | serve kind shard =>
    exact quiet rfl (heard.strokes ok faithful unmoved (serve_stroke s kind shard))
  | run => exact quiet rfl (heard.strokes ok faithful unmoved s.run_strokes)
  | periodicPass =>
    refine quiet rfl (heard.strokes ok faithful (fun r => ?_) s.periodicPass_strokes)
    exact ⟨rfl, World.runPass_alike r.world⟩
  | register kind handler config =>
    obtain ⟨rfl, other⟩ := lets.refrains
    exact quiet rfl ⟨faithful.bind (fun k => Table.find?_insert ..) rfl,
      heard.imp id fun followed => followed.register other config⟩
  | stop kind => exact quiet rfl (heard.stop ok faithful kind)
  | shutdown =>
    exact quiet rfl ⟨fun _ entry => absurd entry List.not_mem_nil,
      heard.imp id fun followed => followed.shutdown⟩
  | refill id allowance =>
    exact quiet rfl ⟨faithful, heard.aside (.modify s.realm id fun _ => rfl) rfl rfl⟩
  | world op =>
    refine quiet rfl ⟨faithful, heard.imp id fun {_ player} followed => ?_⟩
    have plays := followed.player?
    exact followed.of_realm rfl rfl (fun _ => id) (lets.loose player plays)
      (lets.refrains player plays)

end Heard

theorem performAll_heard (heard : Heard endpoint words s) (ok : s.Peopled)
    (faithful : s.dispatcher.Faithful) {ops : List Op} (steady : Steady endpoint s ops) :
    Heard endpoint (words ++ admitted endpoint s ops) (s.performAll ops) := by
  induction ops generalizing s words with
  | nil =>
    unfold admitted
    rwa [List.append_nil]
  | cons op ops ih =>
    obtain ⟨lets, rest⟩ := steady
    obtain ⟨still, heard⟩ := heard.perform ok faithful lets
    unfold admitted
    rw [← List.append_assoc]
    exact ih heard (ok.perform op) still rest

/-- From when an endpoint is away on, whatever came before and whatever comes in between: if its
client stays once it has come, sends no packet in a vehicle, and its player is there and tied to
nothing, if the handlers are left alone and so is what the player says, then, as soon as no worker has
anything left to do, the player says what the last packet on foot says that was accepted from it and
can be read, and what it said at first if there is none. -/
theorem performAll_lastWord (settings : Settings) (before ops : List Op) (endpoint : Endpoint) :
    let s := (start settings).performAll before
    let t := s.performAll ops
    s.realm.clients.find? endpoint = none → s.dispatcher.Faithful → Steady endpoint s ops →
      ∀ b, t.dispatcher.bindings.find? .playerPureSync = some b → ¬ b.queue.stopped →
        b.queue.Idle → ∀ player, t.realm.clients.player? endpoint = some player →
          t.realm.store.sheet? player =
            some ((Sheet.initial endpoint).after (admitted endpoint s ops)) := by
  intro s t away faithful steady b bound running idle player plays
  have ok : s.Peopled := (start_peopled settings).performAll before
  have orderly := (ok.performAll ops).orderly _ b bound
  cases performAll_heard (.away away rfl) ok faithful steady with
  | away absent =>
    rw [Clients.player?_eq_bind, absent] at plays
    cases plays
  | here followed =>
    cases followed.player?.symm.trans plays
    obtain ⟨passed, all, sheet⟩ := followed.heard b bound running
    rw [Queue.payloadsOf_of_idle orderly running idle, List.append_nil, List.nil_append] at all
    rw [sheet, ← all]

def passage : List Op :=
  [.receive ⟨5⟩ 0x20 (Packet.write ({ health := .one } : PlayerSync)) none,
    .receive ⟨5⟩ 0x10 [] none]

def stroll : List Op :=
  [.receive ⟨5⟩ 0x20 (Packet.write ({ armor := .one } : PlayerSync)) none,
    .receive ⟨9⟩ 0x20 (Packet.write ({ rotation := .one } : PlayerSync)) none,
    .take .playerPureSync 1,
    .receive ⟨5⟩ 0x20 (Packet.write ({ position := ⟨.one, .one, .zero⟩ } : PlayerSync)) none,
    .receive ⟨5⟩ 0x20 [1] none,
    .run]

theorem stroll_lastWord :
    let s := (start {}).performAll passage
    let t := s.performAll stroll
    (admitted ⟨5⟩ s stroll).length = 3 ∧
      t.realm.store.sheet? ⟨2⟩ = some ((Sheet.initial ⟨5⟩).after (admitted ⟨5⟩ s stroll)) ∧
      t.realm.store.sheet? ⟨2⟩ = some (PlayerSync.sheet { position := ⟨.one, .one, .zero⟩ }) := by
  dsimp only
  have settled : ∃ b, (((start {}).performAll passage).performAll
      stroll).dispatcher.bindings.find? .playerPureSync = some b ∧
        decide (¬ b.queue.stopped ∧ b.queue.Idle) :=
    (Option.any_eq_true ..).mp (by decide +kernel)
  obtain ⟨b, bound, idle⟩ := settled
  obtain ⟨running, idle⟩ := of_decide_eq_true idle
  refine ⟨by decide +kernel, ?_, by decide +kernel⟩
  exact performAll_lastWord {} passage stroll ⟨5⟩ (by decide +kernel) (by decide +kernel)
    (by decide +kernel) b bound running idle ⟨2⟩ (by decide +kernel)

end Server
end SharedWorld
