import SharedWorld.Proofs.Dispatcher.Effects
import SharedWorld.Proofs.Server.Run

/-! What waits in the queues of a server, and who sent it. In whatever order packets, farewells and the
work of the workers come, every entry that waits is from a client that is known, and known at the
endpoint of the entry; the client may have gone in the meantime, but never comes back. -/
namespace SharedWorld
open Store

namespace Clients
variable {cs cs' : Clients}

/-- Every client that was known still is, with its endpoint and its player; who had gone is gone. -/
def Ages (cs cs' : Clients) : Prop :=
  ∀ id c, cs.get? id = some c → ∃ c', cs'.get? id = some c' ∧ c'.endpoint = c.endpoint ∧
    c'.player = c.player ∧ (c'.connected → c.connected)

theorem Ages.refl (cs : Clients) : Ages cs cs := fun _ c known => ⟨c, known, rfl, rfl, id⟩

theorem Ages.trans {cs'' : Clients} (h : Ages cs cs') (h' : Ages cs' cs'') : Ages cs cs'' := by
  intro id c known
  obtain ⟨c', known', endpoint', player', gone'⟩ := h id c known
  obtain ⟨c'', known'', endpoint'', player'', gone''⟩ := h' id c' known'
  exact ⟨c'', known'', endpoint''.trans endpoint', player''.trans player', gone' ∘ gone''⟩

theorem Ages.of_standing
    (known : ∀ id, (cs'.get? id).map (·.standing) = (cs.get? id).map (·.standing)) :
    Ages cs cs' := by
  intro id c here
  have same := known id
  rw [here, Option.map_some, Option.map_eq_some_iff] at same
  obtain ⟨c', here', standing⟩ := same
  simp only [Client.standing, Prod.mk.injEq] at standing
  exact ⟨c', here', standing.1, standing.2.1, fun connected => standing.2.2 ▸ connected⟩

theorem ages_enlist (cs : Clients) (new : Client) : Ages cs (cs.enlist new).2 :=
  fun _ c known => ⟨c, get?_enlist known, rfl, rfl, id⟩

theorem ages_disconnect (cs : Clients) (gone : ClientId) : Ages cs (cs.disconnect gone).2 := by
  intro id c known
  by_cases here : id = gone
  · subst here
    refine ⟨{ c with connected := false }, ?_, rfl, rfl, nofun⟩
    unfold get? at known ⊢
    unfold disconnect modify
    rw [List.getElem?_modify_eq, known]
    rfl
  · exact ⟨c, (get?_disconnect here cs).trans known, rfl, rfl, fun there => there⟩

/-- The client was here and has gone. -/
def Departed (cs : Clients) (id : ClientId) : Prop := ∃ c, cs.get? id = some c ∧ ¬ c.connected

theorem Departed.ages {id : ClientId} (gone : cs.Departed id) (h : Ages cs cs') : cs'.Departed id := by
  obtain ⟨c, known, left⟩ := gone
  obtain ⟨c', known', _, _, back⟩ := h id c known
  exact ⟨c', known', left ∘ back⟩

theorem departed_disconnect {id : ClientId} {c : Client} (known : cs.get? id = some c) :
    (cs.disconnect id).2.Departed id := by
  refine ⟨{ c with connected := false }, ?_, nofun⟩
  unfold get? at known ⊢
  unfold disconnect modify
  rw [List.getElem?_modify_eq, known]
  rfl

end Clients

namespace Dispatcher
variable {d d' : Dispatcher PacketKind Parcel} {cs cs' : Clients}

/-- Whoever has an entry in the line of an endpoint is a client known at that endpoint. -/
def Addressed (d : Dispatcher PacketKind Parcel) (cs : Clients) : Prop :=
  ∀ kind b, d.bindings.find? kind = some b → ∀ endpoint, ∀ e ∈ b.queue.line endpoint,
    ∃ c, cs.get? e.item.sender = some c ∧ c.endpoint = endpoint

theorem Addressed.ages (ok : d.Addressed cs) (h : cs.Ages cs') : d.Addressed cs' := by
  intro kind b bound endpoint e he
  obtain ⟨c, known, there⟩ := ok kind b bound endpoint e he
  obtain ⟨c', known', endpoint', _⟩ := h _ c known
  exact ⟨c', known', endpoint'.trans there⟩

theorem Addressed.shed (ok : d.Addressed cs) {kind : PacketKind} {b b' : Binding PacketKind Parcel}
    (bound : d.bindings.find? kind = some b) (rebound : d.Rebound d' kind b')
    (fewer : ∀ endpoint, b'.queue.line endpoint ⊆ b.queue.line endpoint) : d'.Addressed cs := by
  intro k found held endpoint e he
  rcases rebound.find held with ⟨rfl, rfl⟩ | ⟨_, held⟩
  · exact ok k b bound endpoint e (fewer endpoint he)
  · exact ok k found held endpoint e he

theorem orderly_of_unbound {η α : Type} {d : Dispatcher η α}
    (none : ∀ kind, d.bindings.find? kind = none) : d.Orderly := by
  intro kind b bound
  rw [none] at bound
  cases bound

theorem addressed_of_unbound (none : ∀ kind, d.bindings.find? kind = none) (cs : Clients) :
    d.Addressed cs := by
  intro kind b bound
  rw [none] at bound
  cases bound

theorem Addressed.stir {handle : PacketKind → Handler Parcel Realm} {errand : Realm → Realm}
    {x y : Dispatcher PacketKind Parcel × Realm} (ok : x.1.Addressed cs)
    (h : Stir handle errand x y) : y.1.Addressed cs := by
  cases h with
  | aside bindings | errand bindings => exact fun k b bound => ok k b (bindings ▸ bound)
  | shed bound change rebound =>
    exact ok.shed bound rebound fun endpoint => (change.line endpoint).subset
  | passed bound change rebound =>
    refine ok.shed bound rebound fun endpoint => ?_
    rw [change.line]
    exact List.subset_append_right ..

theorem Addressed.grown (ok : d.Addressed cs) {kind : PacketKind} {b b' : Binding PacketKind Parcel}
    (bound : d.bindings.find? kind = some b) (rebound : d.Rebound d' kind b')
    {e : QueueEntry Parcel} (change : Queue.Grown b.queue b'.queue e) {c : Client}
    (known : cs.get? e.item.sender = some c) (there : c.endpoint = e.endpoint) :
    d'.Addressed cs := by
  intro k found held endpoint x hx
  rcases rebound.find held with ⟨rfl, rfl⟩ | ⟨_, held⟩
  · rw [change.line, List.mem_append, List.mem_filter, List.mem_singleton, decide_eq_true_eq] at hx
    rcases hx with hx | ⟨rfl, rfl⟩
    · exact ok k b bound endpoint x hx
    · exact ⟨c, known, there⟩
  · exact ok k found held endpoint x hx

theorem enqueue_change {η α : Type} {d : Dispatcher η α} (ok : d.Orderly) (kind : PacketKind)
    (endpoint : Endpoint) (item : α) :
    (d.bindings.find? kind = none ∧ (d.enqueue kind endpoint item).2.bindings = d.bindings) ∨
      ∃ b q, d.bindings.find? kind = some b ∧
        d.Rebound (d.enqueue kind endpoint item).2 kind { b with queue := q } ∧
        (Queue.Shed b.queue q ∨ Queue.Grown b.queue q ⟨endpoint, item, b.queue.sequence⟩) := by
  unfold enqueue
  cases bound : d.bindings.find? kind with
  | none => exact .inl ⟨rfl, rfl⟩
  | some b =>
    refine .inr ⟨b, (b.queue.enqueue endpoint item).2, rfl, setQueue_bindings bound _, ?_⟩
    rcases Queue.enqueue_change (ok kind b bound) endpoint item with ⟨_, _, shed⟩ | ⟨_, grown⟩
    · exact .inl shed
    · exact .inr grown

theorem stop_bindings {η α : Type} {d : Dispatcher η α} {kind : PacketKind} {b : Binding η α}
    (bound : d.bindings.find? kind = some b) :
    d.Rebound (d.stop kind) kind { b with queue := b.queue.stop } := by
  intro k
  refine (Table.find?_modify_eq ..).trans ?_
  split
  · next here =>
    rw [here, bound]
    rfl
  · rfl

theorem stop_of_unbound {η α : Type} {d : Dispatcher η α} {kind : PacketKind}
    (unbound : d.bindings.find? kind = none) (k : PacketKind) :
    (d.stop kind).bindings.find? k = d.bindings.find? k := by
  refine (Table.find?_modify_eq ..).trans ?_
  split
  · next here =>
    rw [here, unbound]
    rfl
  · rfl

end Dispatcher

namespace Server
variable {s t : Server}

theorem clientFor_known (present : s.realm.clients.Present) {endpoint : Endpoint} {id : ClientId}
    {u : Server} (h : s.clientFor endpoint = (.ok id, u)) :
    ∃ c, u.realm.clients.get? id = some c ∧ c.endpoint = endpoint := by
  rcases clientFor_cases s endpoint with ⟨id', here, same⟩ |
    ⟨_, ⟨err, w, _, refused⟩ | ⟨player, w, allowance, _, new⟩⟩
  · cases same.symm.trans h
    obtain ⟨c, known, there, _⟩ := present endpoint id here
    exact ⟨c, known, there⟩
  · cases refused.symm.trans h
  · cases new.symm.trans h
    exact ⟨_, Clients.get?_enlist_self .., rfl⟩

/-- Each queue is in order, its entries are from known clients, and whoever is registered is there. -/
structure Accounted (s : Server) : Prop where
  orderly : s.dispatcher.Orderly
  addressed : s.dispatcher.Addressed s.realm.clients
  present : s.realm.clients.Present

/-- From `s` it goes on to `t`, where every entry has a sender as well. -/
structure Onward (s t : Server) : Prop where
  accounted : t.Accounted
  ages : s.realm.clients.Ages t.realm.clients

theorem Onward.trans {u : Server} (h : Onward s t) (h' : Onward t u) : Onward s u :=
  ⟨h'.accounted, h.ages.trans h'.ages⟩

namespace Accounted

theorem of_same (ok : s.Accounted) (dispatcher : t.dispatcher = s.dispatcher)
    (clients : t.realm.clients = s.realm.clients) : Onward s t where
  accounted := ⟨dispatcher ▸ ok.orderly, dispatcher ▸ clients ▸ ok.addressed, clients ▸ ok.present⟩
  ages := clients ▸ .refl _

theorem of_aside (ok : s.Accounted) (h : Realm.Aside s.realm t.realm)
    (dispatcher : t.dispatcher = s.dispatcher) : Onward s t where
  accounted := ⟨dispatcher ▸ ok.orderly, dispatcher ▸ ok.addressed.ages (.of_standing h.known),
    (ok.present.congr h.registered h.known).1⟩
  ages := .of_standing h.known

theorem of_strokes {errand : Realm → Realm} (ok : s.Accounted)
    (h : Dispatcher.Strokes handler errand (s.dispatcher, s.realm) (t.dispatcher, t.realm))
    (guest : ∀ r, (errand r).clients = r.clients) : Onward s t := by
  have clients : t.realm.clients = s.realm.clients := strokes_clients h guest
  have kept := h.keep (P := fun d _ => d.Addressed s.realm.clients) ok.orderly
    (fun _ stir old => old.stir stir) ok.addressed
  exact ⟨⟨kept.1, clients.symm ▸ kept.2, clients.symm ▸ ok.present⟩, clients ▸ .refl _⟩

theorem of_shed (ok : s.Accounted) {kind : PacketKind} {b : Binding PacketKind Parcel}
    {q : Queue Parcel} (bound : s.dispatcher.bindings.find? kind = some b)
    (rebound : s.dispatcher.Rebound t.dispatcher kind { b with queue := q })
    (shed : Queue.Shed b.queue q) (h : Realm.Aside s.realm t.realm) : Onward s t where
  accounted := ⟨ok.orderly.rebound rebound shed.orderly,
    (ok.addressed.ages (.of_standing h.known)).shed bound rebound fun endpoint =>
      (shed.line endpoint).subset, (ok.present.congr h.registered h.known).1⟩
  ages := .of_standing h.known

theorem disconnect (ok : s.Accounted) (endpoint : Endpoint) (reason : QuitReason) :
    Onward s (s.disconnect endpoint reason).2 := by
  rcases disconnect_cases ok.present endpoint reason with
    ⟨_, same⟩ | ⟨id, c, here, _, clients, _, dispatcher⟩
  · rw [same]
    exact ok.of_same rfl rfl
  · have ages : s.realm.clients.Ages ((s.realm.clients.disconnect id).2.remove endpoint) :=
      Clients.ages_disconnect _ id
    refine ⟨⟨dispatcher ▸ ok.orderly, ?_, ?_⟩, ?_⟩ <;> rw [clients]
    · exact dispatcher ▸ ok.addressed.ages ages
    · exact (ok.present.leave here).1
    · exact ages

theorem clientFor (ok : s.Accounted) (endpoint : Endpoint) : Onward s (s.clientFor endpoint).2 := by
  rcases clientFor_cases s endpoint with ⟨id, _, h⟩ | ⟨_, ⟨err, w, _, h⟩ | ⟨player, w, a, _, h⟩⟩
  · rw [h]
    exact ok.of_same rfl rfl
  · rw [h]
    exact ok.of_same rfl rfl
  · rw [h]
    exact ⟨⟨ok.orderly, ok.addressed.ages (Clients.ages_enlist _ _), (ok.present.enlist rfl).1⟩,
      Clients.ages_enlist _ _⟩

theorem accept (ok : s.Accounted) {id : ClientId} {c : Client}
    (known : s.realm.clients.get? id = some c) (kind : PacketKind) (payload : List UInt8) :
    Onward s (s.accept id c.endpoint kind payload) := by
  obtain ⟨aside, _, same | offered⟩ := accept_cases s id c.endpoint kind payload
  · exact ok.of_aside aside same
  rcases Dispatcher.enqueue_change ok.orderly kind c.endpoint (⟨id, payload⟩ : Parcel) with
    ⟨_, bindings⟩ | ⟨b, q, bound, rebound, shed | grown⟩
  · have ages := Clients.Ages.of_standing aside.known
    refine ⟨⟨?_, ?_, (ok.present.congr aside.registered aside.known).1⟩, ages⟩ <;> rw [offered]
    · exact fun k b bound => ok.orderly k b (bindings ▸ bound)
    · exact fun k b bound => ok.addressed.ages ages k b (bindings ▸ bound)
  · exact ok.of_shed bound (offered ▸ rebound) shed aside
  · have ages := Clients.Ages.of_standing aside.known
    obtain ⟨c', known', there, _⟩ := ages id c known
    refine ⟨⟨?_, ?_, (ok.present.congr aside.registered aside.known).1⟩, ages⟩ <;> rw [offered]
    · exact ok.orderly.rebound rebound grown.orderly
    · exact (ok.addressed.ages ages).grown bound rebound grown known' there

theorem receive (ok : s.Accounted) (endpoint : Endpoint) (opening : UInt8) (payload : List UInt8)
    (latency : Option UInt32) : Onward s (s.receive endpoint opening payload latency) := by
  rcases receive_cases s endpoint opening payload latency with
    ⟨realm, dispatcher⟩ | ⟨_, reason, h⟩ | ⟨_, ⟨err, h⟩ | ⟨kind, id, u, v, _, h, aside, _, same, taken⟩⟩
  · exact ok.of_same dispatcher (congrArg _ realm)
  · rw [h]
    exact ok.disconnect endpoint reason
  · have welcomed := ok.clientFor endpoint
    rw [h] at welcomed
    exact welcomed
  · have welcomed := ok.clientFor endpoint
    rw [h] at welcomed
    obtain ⟨c, known, rfl⟩ := clientFor_known ok.present h
    obtain ⟨c', known', there, _⟩ := Clients.Ages.of_standing aside.known id c known
    have greeted := welcomed.accounted.of_aside aside same
    rw [taken, ← there]
    exact welcomed.trans (greeted.trans (greeted.accounted.accept known' kind payload))

theorem perform (ok : s.Accounted) (op : Op) : Onward s (s.perform op) := by
  cases op with
  | receive endpoint opening payload latency => exact ok.receive endpoint opening payload latency
  | disconnect endpoint reason => exact ok.disconnect endpoint reason
  | take kind shard => exact ok.of_strokes (take_stroke s kind shard) fun _ => rfl
  | serve kind shard => exact ok.of_strokes (serve_stroke s kind shard) fun _ => rfl
  | run => exact ok.of_strokes s.run_strokes fun _ => rfl
  | periodicPass => exact ok.of_strokes s.periodicPass_strokes fun _ => rfl
  | register kind handler config =>
    have rebound : s.dispatcher.Rebound (s.dispatcher.register kind handler config) kind
        ⟨handler, .start kind config⟩ := fun k => Table.find?_insert ..
    refine ⟨⟨ok.orderly.rebound rebound (Queue.start_orderly kind config), ?_, ok.present⟩, .refl _⟩
    intro k found held endpoint e he
    rcases rebound.find held with ⟨rfl, rfl⟩ | ⟨_, held⟩
    · rw [Queue.start_line] at he
      cases he
    · exact ok.addressed k found held endpoint e he
  | stop kind =>
    cases bound : s.dispatcher.bindings.find? kind with
    | none =>
      have same := Dispatcher.stop_of_unbound bound
      exact ⟨⟨fun k b held => ok.orderly k b ((same k).symm.trans held),
        fun k b held => ok.addressed k b ((same k).symm.trans held), ok.present⟩, .refl _⟩
    | some b =>
      exact ok.of_shed bound (Dispatcher.stop_bindings bound)
        (Queue.stop_shed (ok.orderly kind b bound)) (.refl _)
  | shutdown =>
    have none (k) : s.shutdown.dispatcher.bindings.find? k = none := rfl
    exact ⟨⟨Dispatcher.orderly_of_unbound none, Dispatcher.addressed_of_unbound none _, ok.present⟩,
      .refl _⟩
  | refill id allowance =>
    exact ok.of_aside (.modify s.realm id (f := ({ · with allowance })) fun _ => rfl) rfl
  | world op => exact ok.of_same rfl rfl

end Accounted

theorem performAll_onward (ok : s.Accounted) (ops : List Op) : Onward s (s.performAll ops) := by
  induction ops generalizing s with
  | nil => exact ok.of_same rfl rfl
  | cons op ops ih => exact (ok.perform op).trans (ih (ok.perform op).accounted)

theorem start_accounted (settings : Settings) : (start settings).Accounted := by
  -- A server starts with a registration for each kind that is handled.
  have registered (kinds : List PacketKind) {s : Server} (ok : s.Accounted) :
      (s.withDispatcher (kinds.foldl (fun d kind => d.register kind kind (queueFor settings kind))
        s.dispatcher)).Accounted := by
    induction kinds generalizing s with
    | nil => exact ok
    | cons kind kinds ih =>
      exact ih (ok.perform (.register kind kind (queueFor settings kind))).accounted
  refine registered Realm.handled
    (s := { settings, realm := { world := { store := .withCellSize settings.cellSize } } })
    ⟨Dispatcher.orderly_of_unbound fun _ => rfl, Dispatcher.addressed_of_unbound (fun _ => rfl) _,
      fun _ _ here => nomatch here⟩

end Server
end SharedWorld
