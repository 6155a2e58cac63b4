import SharedWorld.Proofs.Realm.Vehicles
import SharedWorld.Proofs.Server.Parcels
import SharedWorld.Proofs.World.IdSource

/-! The elements of a server and the players of its clients. The relations between elements stay
sound whatever happens, and a client gets a player whose identifier was never given out before, so
no two clients ever have the same one. -/
namespace SharedWorld
open Store

/-- From `r` on, the elements went through a chain of turns, and the counter went on. -/
structure Realm.Proceeds (r u : Realm) : Prop where
  turns : Turns r.store u.store
  ids : IdSource.Onward r.store.ids u.store.ids

namespace Realm.Proceeds
variable {r u v : Realm}

theorem of_same (same : u.store = r.store) : Proceeds r u := by
  refine ⟨?_, ?_⟩ <;> rw [same]
  exact .refl _

theorem refl (r : Realm) : Proceeds r r := of_same rfl

theorem trans (h : Proceeds r u) (h' : Proceeds u v) : Proceeds r v :=
  ⟨h.turns.trans h'.turns, h.ids.trans h'.ids⟩

theorem world (op : World.Op) (done : u.store = (r.world.perform op).store) : Proceeds r u := by
  refine ⟨?_, ?_⟩ <;> rw [done]
  · exact World.perform_turns r.world op
  · exact World.perform_onward r.world op

theorem handler (kind : PacketKind) (e : QueueEntry Parcel) (r : Realm) :
    Proceeds r (Server.handler kind e r).2 := by
  unfold Server.handler
  split
  · exact .refl r
  · next sender _ =>
    refine ⟨take_turns kind r sender e.item.payload, ?_⟩
    rw [(take_discreet kind r sender e.item.payload).writes.ids]
    exact .refl _

end Realm.Proceeds

namespace Clients
variable {cs cs' : Clients}

def playerOf? (cs : Clients) (id : ClientId) : Option ElementId := (cs.get? id).map (·.player)

theorem player?_eq_bind (cs : Clients) (endpoint : Endpoint) :
    cs.player? endpoint = (cs.find? endpoint).bind cs.playerOf? := by
  unfold player? playerOf?
  cases cs.find? endpoint <;> rfl

theorem playerOf?_of_standing
    (known : ∀ id, (cs'.get? id).map (·.standing) = (cs.get? id).map (·.standing))
    (id : ClientId) : cs'.playerOf? id = cs.playerOf? id := by
  have seen (o : Option Client) : o.map (·.player) = (o.map (·.standing)).map (·.2.1) := by
    cases o <;> rfl
  unfold playerOf?
  rw [seen, seen, known]

theorem playerOf?_disconnect (cs : Clients) (gone id : ClientId) :
    (cs.disconnect gone).2.playerOf? id = cs.playerOf? id := by
  unfold playerOf? get? disconnect modify
  rw [List.getElem?_modify]
  split <;> simp [Function.comp_def]

theorem playerOf?_enlist (cs : Clients) (new : Client) (id : ClientId) :
    (cs.enlist new).2.playerOf? id =
      if id = (cs.enlist new).1 then some new.player else cs.playerOf? id := by
  unfold playerOf? get? enlist
  dsimp only
  rw [List.getElem?_append]
  split
  · next early =>
    rw [if_neg fun here => ?_]
    rw [here] at early
    exact Nat.lt_irrefl _ early
  · next late =>
    by_cases here : id = ⟨cs.known.length⟩
    · simp [here]
    · have number : id.number ≠ cs.known.length := fun same => here (by rw [← same])
      have beyond : id.number - cs.known.length ≠ 0 := by omega
      rw [if_neg here, List.getElem?_eq_none (Nat.le_of_not_lt late), List.getElem?_eq_none]
      simp only [List.length_singleton]
      omega

theorem get?_next (cs : Clients) (new : Client) : cs.get? (cs.enlist new).1 = none :=
  List.getElem?_eq_none (Nat.le_refl _)

end Clients

namespace Server
variable {s t : Server}

/-- The relations between elements are sound, and no player of a client will be given out anew. -/
structure Peopled (s : Server) : Prop extends Accounted s where
  linked : s.realm.store.Linked
  untangled : s.realm.store.Untangled
  counter : s.realm.store.ids.IsCounter
  past : ∀ id player, s.realm.clients.playerOf? id = some player → s.realm.store.ids.Past player

namespace Peopled

theorem of_proceeds (ok : s.Peopled) (accounted : t.Accounted)
    (h : Realm.Proceeds s.realm t.realm)
    (past : ∀ id player, t.realm.clients.playerOf? id = some player →
      s.realm.clients.playerOf? id = some player ∨ t.realm.store.ids.Past player) : t.Peopled where
  toAccounted := accounted
  linked := Turns.linked h.turns ok.linked
  untangled := Turns.keep h.turns ok.linked (fun ok turn => turn.untangled ok) ok.untangled
  counter := h.ids.counter ok.counter
  past id player known := (past id player known).elim
    (fun old => h.ids.past player (ok.past id player old)) fun new => new

theorem disconnect (ok : s.Peopled) (endpoint : Endpoint) (reason : QuitReason) :
    (s.disconnect endpoint reason).2.Peopled := by
  have accounted := (ok.toAccounted.disconnect endpoint reason).accounted
  rcases disconnect_cases ok.present endpoint reason with
    ⟨_, same⟩ | ⟨id, c, _, _, clients, store, _⟩
  · rwa [same]
  · refine ok.of_proceeds accounted (.world (.remove c.player) store) fun other player known => ?_
    rw [clients] at known
    exact .inl ((Clients.playerOf?_disconnect _ id other).symm.trans known)

theorem clientFor (ok : s.Peopled) (endpoint : Endpoint) : (s.clientFor endpoint).2.Peopled := by
  have accounted := (ok.toAccounted.clientFor endpoint).accounted
  rcases clientFor_cases s endpoint with
    ⟨id, _, h⟩ | ⟨_, ⟨err, w, made, h⟩ | ⟨player, w, allowance, made, h⟩⟩ <;>
  rw [h] at accounted ⊢
  · exact ok
  · obtain ⟨_, rfl⟩ := World.insert_performs made
    exact ok.of_proceeds accounted (.world (.store (.insert { kind := .player { endpoint } })) rfl)
      fun _ _ known => .inl known
  · obtain ⟨granted, rfl⟩ := World.insert_performs made
    refine ok.of_proceeds accounted
      (.world (.store (.insert { kind := .player { endpoint } })) rfl) fun id held known => ?_
    have known := (Clients.playerOf?_enlist ..).symm.trans known
    split at known
    · cases known
      exact .inr (insert_fresh (show ¬ ElementId.invalid.isValid by decide) ok.counter granted).1
    · exact .inl known

theorem receive (ok : s.Peopled) (endpoint : Endpoint) (opening : UInt8) (payload : List UInt8)
    (latency : Option UInt32) : (s.receive endpoint opening payload latency).Peopled := by
  have accounted := (ok.toAccounted.receive endpoint opening payload latency).accounted
  rcases receive_cases s endpoint opening payload latency with
    ⟨realm, _⟩ | ⟨_, reason, h⟩ | ⟨_, ⟨err, h⟩ | ⟨kind, id, u, v, _, h, aside, same, _, taken⟩⟩
  · exact ok.of_proceeds accounted (.of_same (congrArg _ realm)) fun _ _ known =>
      .inl (realm ▸ known)
  · rw [h]
    exact ok.disconnect endpoint reason
  · have welcomed := ok.clientFor endpoint
    rw [h] at welcomed
    exact welcomed
  · have welcomed := ok.clientFor endpoint
    rw [h] at welcomed
    rw [taken] at accounted ⊢
    obtain ⟨spent, world, _⟩ := accept_cases v id endpoint kind payload
    refine welcomed.of_proceeds accounted (.of_same (congrArg World.store (world.trans same)))
      fun other player known => .inl ?_
    rw [Clients.playerOf?_of_standing spent.known, Clients.playerOf?_of_standing aside.known]
      at known
    exact known

theorem of_strokes {errand : Realm → Realm} (ok : s.Peopled) (accounted : t.Accounted)
    (h : Dispatcher.Strokes handler errand (s.dispatcher, s.realm) (t.dispatcher, t.realm))
    (clients : ∀ r, (errand r).clients = r.clients)
    (guest : ∀ r, Realm.Proceeds r (errand r)) : t.Peopled := by
  refine ok.of_proceeds accounted (h.lift .refl .trans Realm.Proceeds.handler guest)
    fun id player known => .inl ?_
  have same : t.realm.clients = s.realm.clients := strokes_clients h clients
  exact same ▸ known

theorem perform (ok : s.Peopled) (op : Op) : (s.perform op).Peopled := by
  have accounted := (ok.toAccounted.perform op).accounted
  have kept {t : Server} (accounted : t.Accounted) (same : t.realm = s.realm) : t.Peopled :=
    ok.of_proceeds accounted (.of_same (congrArg _ same)) fun _ _ known => .inl (same ▸ known)
  cases op with
  | receive endpoint opening payload latency => exact ok.receive endpoint opening payload latency
  | disconnect endpoint reason => exact ok.disconnect endpoint reason
  | take kind shard => exact ok.of_strokes accounted (take_stroke s kind shard) (fun _ => rfl) .refl
  | serve kind shard =>
    exact ok.of_strokes accounted (serve_stroke s kind shard) (fun _ => rfl) .refl
  | run => exact ok.of_strokes accounted s.run_strokes (fun _ => rfl) .refl
  | periodicPass =>
    exact ok.of_strokes accounted s.periodicPass_strokes (fun _ => rfl) fun r => .world .runPass rfl
  | register kind handler config | stop kind | shutdown => exact kept accounted rfl
  | refill id allowance =>
    refine ok.of_proceeds accounted (.of_same rfl) fun other player known => .inl ?_
    have aside : Realm.Aside s.realm
        { s.realm with clients := s.realm.clients.modify id ({ · with allowance }) } :=
      .modify s.realm id fun _ => rfl
    exact (Clients.playerOf?_of_standing aside.known other).symm.trans known
  | world op => exact ok.of_proceeds accounted (.world op rfl) fun _ _ known => .inl known

theorem performAll (ok : s.Peopled) (ops : List Op) : (s.performAll ops).Peopled := by
  induction ops generalizing s with
  | nil => exact ok
  | cons op ops ih => exact ih (ok.perform op)

end Peopled

theorem start_peopled (settings : Settings) : (start settings).Peopled where
  toAccounted := start_accounted settings
  linked := .withRoot settings.cellSize (.counter 1) ⟨0⟩
  untangled := untangled_withRoot settings.cellSize (.counter 1) ⟨0⟩
  counter := ⟨1, rfl⟩
  past _ _ known := nomatch known

end Server
end SharedWorld
