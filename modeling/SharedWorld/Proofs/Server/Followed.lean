import SharedWorld.Proofs.Realm.Sheets
import SharedWorld.Proofs.Server.Population

/-! What waits in the queues from one client, and what its player says meanwhile. While the workers
work, a player on foot that is tied to nothing says what the last packet of its client says that was
dealt with, and the packets that come after it wait in the order in which they were taken. -/
namespace SharedWorld
open Store

def Queue.payloadsOf (q : Queue Parcel) (endpoint : Endpoint) (id : ClientId) : List (List UInt8) :=
  ((q.line endpoint).filter (·.item.sender = id)).map (·.item.payload)

namespace Queue
variable {q q' : Queue Parcel} {e : QueueEntry Parcel} {endpoint : Endpoint} {id : ClientId}

/-- What an entry adds to the line of an endpoint that a client has in it. -/
def payloadOf (e : QueueEntry Parcel) (endpoint : Endpoint) (id : ClientId) : List (List UInt8) :=
  if e.endpoint = endpoint ∧ e.item.sender = id then [e.item.payload] else []

theorem payloadsOf_single (e : QueueEntry Parcel) (endpoint : Endpoint) (id : ClientId) :
    (([e].filter (·.endpoint = endpoint)).filter (·.item.sender = id)).map (·.item.payload) =
      payloadOf e endpoint id := by
  unfold payloadOf
  by_cases there : e.endpoint = endpoint <;> by_cases own : e.item.sender = id <;>
  simp [there, own]

theorem Grown.payloadsOf (change : Grown q q' e) (endpoint : Endpoint) (id : ClientId) :
    q'.payloadsOf endpoint id = q.payloadsOf endpoint id ++ payloadOf e endpoint id := by
  rw [← payloadsOf_single]
  unfold Queue.payloadsOf
  rw [change.line, List.filter_append, List.map_append]

theorem Passed.payloadsOf (change : Passed q q' e) (endpoint : Endpoint) (id : ClientId) :
    q.payloadsOf endpoint id = payloadOf e endpoint id ++ q'.payloadsOf endpoint id := by
  rw [← payloadsOf_single]
  unfold Queue.payloadsOf
  rw [change.line, List.filter_append, List.map_append]

theorem Shed.payloadsOf (change : Shed q q') (running : ¬ q'.stopped) (endpoint : Endpoint)
    (id : ClientId) : q'.payloadsOf endpoint id = q.payloadsOf endpoint id := by
  unfold Queue.payloadsOf
  rw [change.kept running]

theorem payloadsOf_of_idle (ok : q.Orderly) (running : ¬ q.stopped) (idle : q.Idle)
    (endpoint : Endpoint) (id : ClientId) : q.payloadsOf endpoint id = [] := by
  unfold payloadsOf
  rw [line_of_idle ok running idle]
  rfl

end Queue

namespace Dispatcher
variable {d d' : Dispatcher PacketKind Parcel}

/-- Every kind has the handler that is meant for it. -/
def Faithful (d : Dispatcher PacketKind Parcel) : Prop :=
  ∀ x ∈ d.bindings.entries, x.2.handler = x.1

instance (d : Dispatcher PacketKind Parcel) : Decidable d.Faithful :=
  inferInstanceAs (Decidable (∀ _ ∈ _, _))

theorem faithful_iff : d.Faithful ↔ ∀ kind b, d.bindings.find? kind = some b → b.handler = kind :=
  ⟨fun h kind b bound => h (kind, b) (Table.mem_of_find? bound),
    fun h x entry => h x.1 x.2 (Table.find?_of_mem entry)⟩

theorem Faithful.congr (ok : d.Faithful)
    (same : ∀ kind, d'.bindings.find? kind = d.bindings.find? kind) : d'.Faithful := by
  rw [faithful_iff] at ok ⊢
  exact fun kind b bound => ok kind b ((same kind).symm.trans bound)

theorem Faithful.bind {kind : PacketKind} {b : Binding PacketKind Parcel} (ok : d.Faithful)
    (rebound : d.Rebound d' kind b) (own : b.handler = kind) : d'.Faithful := by
  rw [faithful_iff] at ok ⊢
  intro k found held
  rcases rebound.find held with ⟨rfl, rfl⟩ | ⟨_, held⟩
  · exact own
  · exact ok k found held

theorem Faithful.rebound {kind : PacketKind} {b : Binding PacketKind Parcel} {q : Queue Parcel}
    (ok : d.Faithful) (bound : d.bindings.find? kind = some b)
    (rebound : d.Rebound d' kind { b with queue := q }) : d'.Faithful :=
  ok.bind rebound (faithful_iff.mp ok kind b bound)

end Dispatcher

namespace Server

/-- What the work of the workers rests on. -/
structure Sound (d : Dispatcher PacketKind Parcel) (r : Realm) : Prop where
  addressed : d.Addressed r.clients
  present : r.clients.Present
  linked : r.store.Linked
  untangled : r.store.Untangled
  faithful : d.Faithful

theorem Peopled.sound {s : Server} (ok : s.Peopled) (faithful : s.dispatcher.Faithful) :
    Sound s.dispatcher s.realm :=
  ⟨ok.addressed, ok.present, ok.linked, ok.untangled, faithful⟩

section Stir
variable {errand : Realm → Realm} {x y : Dispatcher PacketKind Parcel × Realm}
  (guest : ∀ r, (errand r).clients = r.clients ∧ Alike r.store (errand r).store)
include guest

theorem Sound.stir (ok : Sound x.1 x.2) (h : Dispatcher.Stir handler errand x y) :
    Sound y.1 y.2 := by
  have clients : y.2.clients = x.2.clients := by
    cases h with
    | aside _ state | shed _ _ _ state => rw [state]
    | errand _ state => rw [state, (guest x.2).1]
    | passed _ _ _ state => rw [state, handler_clients]
  have turns : Turns x.2.store y.2.store := by
    cases h with
    | aside _ state | shed _ _ _ state => rw [state]
    | errand _ state => exact state ▸ (Turn.alike (guest x.2).2).turns
    | passed _ _ _ state => exact state ▸ (Realm.Proceeds.handler ..).turns
  refine ⟨clients.symm ▸ ok.addressed.stir h, clients.symm ▸ ok.present, turns.linked ok.linked,
    turns.keep ok.linked (fun ok turn => turn.untangled ok) ok.untangled, ?_⟩
  cases h with
  | aside bindings | errand bindings => exact ok.faithful.congr fun k => by rw [bindings]
  | shed bound _ rebound | passed bound _ rebound => exact ok.faithful.rebound bound rebound

theorem Sound.strokes (ok : Sound x.1 x.2) (orderly : x.1.Orderly)
    (strokes : Dispatcher.Strokes handler errand x y) : Sound y.1 y.2 :=
  (strokes.keep (P := Sound) orderly (fun _ stir old => old.stir guest stir) ok).2

end Stir

/-- The endpoint has a client whose player is tied to nothing. Of its packets on foot, those in
`words`, some were dealt with and the rest waits, unless the queue was stopped; the player says what
the last of the former said. -/
structure Followed (endpoint : Endpoint) (id : ClientId) (player : ElementId)
    (words : List (List UInt8)) (d : Dispatcher PacketKind Parcel) (r : Realm) : Prop where
  registered : r.clients.find? endpoint = some id
  plays : r.clients.playerOf? id = some player
  alone : ∀ other, r.clients.playerOf? other = some player → other = id
  loose : r.store.Loose player
  onFoot : ∀ b, d.bindings.find? .vehiclePureSync = some b →
    ∀ e ∈ b.queue.line endpoint, e.item.sender ≠ id
  heard : ∀ b, d.bindings.find? .playerPureSync = some b → ¬ b.queue.stopped →
    ∃ passed, words = passed ++ b.queue.payloadsOf endpoint id ∧
      r.store.sheet? player = some ((Sheet.initial endpoint).after passed)

namespace Followed
variable {endpoint : Endpoint} {id : ClientId} {player : ElementId} {words more : List (List UInt8)}
  {d d' : Dispatcher PacketKind Parcel} {r u : Realm}

theorem of_realm (h : Followed endpoint id player words d r)
    (registered : u.clients.find? endpoint = r.clients.find? endpoint)
    (plays : u.clients.playerOf? id = r.clients.playerOf? id)
    (alone : ∀ other, u.clients.playerOf? other = some player →
      r.clients.playerOf? other = some player)
    (loose : u.store.Loose player) (sheet : u.store.sheet? player = r.store.sheet? player) :
    Followed endpoint id player words d u where
  registered := registered.trans h.registered
  plays := plays.trans h.plays
  alone other plays := h.alone other (alone other plays)
  loose := loose
  onFoot := h.onFoot
  heard := sheet ▸ h.heard

theorem of_bindings (h : Followed endpoint id player words d r)
    (same : ∀ kind, d'.bindings.find? kind = d.bindings.find? kind) :
    Followed endpoint id player words d' r :=
  { h with
    onFoot := fun b bound => h.onFoot b ((same _).symm.trans bound)
    heard := fun b bound => h.heard b ((same _).symm.trans bound) }

theorem rebound (h : Followed endpoint id player words d r) {kind : PacketKind}
    {b : Binding PacketKind Parcel} {q : Queue Parcel} (bound : d.bindings.find? kind = some b)
    (rebound : d.Rebound d' kind { b with queue := q })
    (seated : kind = .vehiclePureSync → ∀ e ∈ q.line endpoint, e.item.sender = id →
      e ∈ b.queue.line endpoint)
    (spoken : kind = .playerPureSync → ¬ q.stopped → ¬ b.queue.stopped ∧
      q.payloadsOf endpoint id = b.queue.payloadsOf endpoint id ++ more)
    (silent : kind ≠ .playerPureSync → more = []) :
    Followed endpoint id player (words ++ more) d' r where
  registered := h.registered
  plays := h.plays
  alone := h.alone
  loose := h.loose
  onFoot found held e he own := by
    rcases rebound.find held with ⟨here, rfl⟩ | ⟨_, held⟩
    · exact h.onFoot b (here ▸ bound) e (seated here.symm e he own) own
    · exact h.onFoot found held e he own
  heard found held running := by
    rcases rebound.find held with ⟨here, rfl⟩ | ⟨other, held⟩
    · obtain ⟨before, grown⟩ := spoken here.symm running
      obtain ⟨passed, rest, sheet⟩ := h.heard b (here ▸ bound) before
      exact ⟨passed, by rw [rest, grown, List.append_assoc], sheet⟩
    · rw [silent (Ne.symm other), List.append_nil]
      exact h.heard found held running

theorem shed (h : Followed endpoint id player words d r) {kind : PacketKind}
    {b : Binding PacketKind Parcel} {q : Queue Parcel} (bound : d.bindings.find? kind = some b)
    (rebound : d.Rebound d' kind { b with queue := q }) (change : Queue.Shed b.queue q) :
    Followed endpoint id player words d' r := by
  have same : Followed endpoint id player (words ++ []) d' r := h.rebound bound rebound
    (fun _ e he _ => (change.line endpoint).subset he)
    (fun _ running => ⟨fun before => running (change.stopped before), by
      rw [change.payloadsOf running, List.append_nil]⟩) fun _ => rfl
  rwa [List.append_nil] at same

theorem grown (h : Followed endpoint id player words d r) {kind : PacketKind}
    {b : Binding PacketKind Parcel} {q : Queue Parcel} {e : QueueEntry Parcel}
    (bound : d.bindings.find? kind = some b)
    (rebound : d.Rebound d' kind { b with queue := q }) (change : Queue.Grown b.queue q e)
    (walks : e.endpoint = endpoint → kind ≠ .vehiclePureSync) :
    Followed endpoint id player
      (words ++ if kind = .playerPureSync then Queue.payloadOf e endpoint id else []) d' r := by
  refine h.rebound bound rebound (fun rides x hx _ => ?_) (fun walked _ => ?_) fun other => ?_
  · rw [change.line, List.mem_append, List.mem_filter, decide_eq_true_eq] at hx
    rcases hx with hx | ⟨new, own⟩
    · exact hx
    · exact absurd rides (walks (List.mem_singleton.mp new ▸ own))
  · rw [if_pos walked]
    exact ⟨change.running, change.payloadsOf endpoint id⟩
  · exact if_neg other

/-- What the player says after an entry was dealt with: what a packet of its own on foot says, if it
can be read, and else what it said before. -/
theorem handled (h : Followed endpoint id player words d r) (sound : Sound d r) {kind : PacketKind}
    {b : Binding PacketKind Parcel} {q : Queue Parcel} {e : QueueEntry Parcel}
    (bound : d.bindings.find? kind = some b) (change : Queue.Passed b.queue q e) :
    let u := (handler b.handler e r).2
    u.store.Loose player ∧ u.store.sheet? player =
      if kind = .playerPureSync ∧ e.endpoint = endpoint ∧ e.item.sender = id then
        (PlayerSync.read? e.item.payload).elim (r.store.sheet? player) (some ·.sheet)
      else r.store.sheet? player := by
  have own : b.handler = kind := Dispatcher.faithful_iff.mp sound.faithful kind b bound
  have first : e ∈ b.queue.line e.endpoint := by
    rw [change.line]
    simp
  obtain ⟨c, known, there⟩ := sound.addressed kind b bound e.endpoint e first
  intro u
  have done : u = (r.take kind c e.item.payload).2 := by
    unfold u handler
    rw [known, own]
  have loose : u.store.Loose player := done ▸ h.loose.of_bonds (Realm.take_bonds kind r c _ player)
  refine ⟨loose, ?_⟩
  by_cases sent : e.item.sender = id
  · obtain ⟨c', known', there', connected⟩ := sound.present endpoint id h.registered
    subst sent
    cases known.symm.trans known'
    have self : c.player = player := by
      have plays := h.plays
      rw [Clients.playerOf?, known] at plays
      exact Option.some.inj plays
    have walks : kind ≠ .vehiclePureSync := fun rides =>
      h.onFoot b (rides ▸ bound) e (there.symm.trans there' ▸ first) rfl
    subst self
    rw [done, Realm.take_sheet?_own sound.linked sound.untangled h.loose connected walks]
    simp [← there, there']
  · have other : c.player ≠ player := fun same => sent <| h.alone _ <| by
      rw [Clients.playerOf?, known, ← same]
      rfl
    rw [if_neg fun mine => sent mine.2.2, done]
    exact sheet?_congr (Realm.take_find?_other sound.linked sound.untangled h.loose other kind _)

theorem passed (h : Followed endpoint id player words d r) (sound : Sound d r) {kind : PacketKind}
    {b : Binding PacketKind Parcel} {q : Queue Parcel} {e : QueueEntry Parcel}
    (bound : d.bindings.find? kind = some b) (change : Queue.Passed b.queue q e)
    (rebound : d.Rebound d' kind { b with queue := q }) :
    Followed endpoint id player words d' (handler b.handler e r).2 := by
  obtain ⟨loose, sheet⟩ := h.handled sound bound change
  have clients := handler_clients b.handler e r
  refine ⟨clients.symm ▸ h.registered, clients.symm ▸ h.plays, clients.symm ▸ h.alone, loose,
    fun found held x hx => ?_, fun found held running => ?_⟩
  · rcases rebound.find held with ⟨here, rfl⟩ | ⟨_, held⟩
    · refine h.onFoot b (here ▸ bound) x ?_
      rw [change.line]
      exact List.mem_append_right _ hx
    · exact h.onFoot found held x hx
  · rcases rebound.find held with ⟨here, rfl⟩ | ⟨other, held⟩
    · obtain ⟨passed, rest, said⟩ := h.heard b (here ▸ bound) change.running
      rw [change.payloadsOf, ← List.append_assoc] at rest
      refine ⟨_, rest, ?_⟩
      rw [sheet, said]
      by_cases mine : e.endpoint = endpoint ∧ e.item.sender = id
      · rw [if_pos ⟨here.symm, mine⟩, Queue.payloadOf, if_pos mine, Sheet.after_append]
        cases PlayerSync.read? e.item.payload <;> rfl
      · rw [if_neg fun own => mine own.2, Queue.payloadOf, if_neg mine, List.append_nil]
    · rw [if_neg fun own => other own.1.symm] at sheet
      rw [sheet]
      exact h.heard found held running

section Stir
variable {errand : Realm → Realm} {x y : Dispatcher PacketKind Parcel × Realm}
  (guest : ∀ r, (errand r).clients = r.clients ∧ Alike r.store (errand r).store)
include guest

theorem stir (h : Followed endpoint id player words x.1 x.2) (sound : Sound x.1 x.2)
    (stir : Dispatcher.Stir handler errand x y) : Followed endpoint id player words y.1 y.2 := by
  cases stir with
  | aside bindings state => exact state ▸ h.of_bindings fun kind => by rw [bindings]
  | errand bindings state =>
    obtain ⟨clients, alike⟩ := guest x.2
    refine state ▸ (h.of_realm (by rw [clients]) (by rw [clients]) (by simp [clients]) ?_
      ?_).of_bindings fun kind => by rw [bindings]
    · exact h.loose.of_find (alike.find? player)
    · exact sheet?_congr (alike.find? player)
  | shed bound change rebound state => exact state ▸ h.shed bound rebound change
  | passed bound change rebound state => exact state ▸ h.passed sound bound change rebound

theorem strokes (h : Followed endpoint id player words x.1 x.2) (orderly : x.1.Orderly)
    (sound : Sound x.1 x.2) (strokes : Dispatcher.Strokes handler errand x y) :
    Followed endpoint id player words y.1 y.2 :=
  (strokes.keep (P := fun d r => Sound d r ∧ Followed endpoint id player words d r) orderly
    (fun _ stir old => ⟨old.1.stir guest stir, old.2.stir guest old.1 stir⟩) ⟨sound, h⟩).2.2

end Stir

theorem register (h : Followed endpoint id player words d r) {kind : PacketKind}
    (other : kind ≠ .playerPureSync) (config : QueueConfig) :
    Followed endpoint id player words (d.register kind kind config) r := by
  have rebound : d.Rebound (d.register kind kind config) kind ⟨kind, .start kind config⟩ :=
    fun k => Table.find?_insert ..
  refine { h with onFoot := fun b bound e he => ?_, heard := fun b bound => ?_ }
  · rcases rebound.find bound with ⟨_, rfl⟩ | ⟨_, bound⟩
    · rw [Queue.start_line] at he
      cases he
    · exact h.onFoot b bound e he
  · rcases rebound.find bound with ⟨here, _⟩ | ⟨_, bound⟩
    · exact absurd here.symm other
    · exact h.heard b bound

theorem shutdown (h : Followed endpoint id player words d r) :
    Followed endpoint id player words d.shutdown r :=
  { h with
    onFoot := fun b bound => absurd bound (Option.some_ne_none b).symm
    heard := fun b bound => absurd bound (Option.some_ne_none b).symm }

theorem aside (h : Followed endpoint id player words d r) (aside : Realm.Aside r u)
    (world : u.world = r.world) : Followed endpoint id player words d u := by
  have same (other) := Clients.playerOf?_of_standing aside.known other
  have store : u.store = r.store := congrArg World.store world
  refine h.of_realm (congrArg (·.find? endpoint) aside.registered) (same id)
    (fun other => (same other).symm.trans) ?_ (by rw [store])
  rw [store]
  exact h.loose

theorem enlist (h : Followed endpoint id player words d r) {c : Client}
    (other : c.endpoint ≠ endpoint) {e : Element}
    (granted : r.store.insert e = (.ok c.player, u.store))
    (clients : u.clients = (r.clients.enlist c).2) : Followed endpoint id player words d u := by
  obtain ⟨apart, loose, sheet⟩ := h.loose.insert granted
  have old : id ≠ (r.clients.enlist c).1 := fun here => by
    have plays := h.plays
    rw [here, Clients.playerOf?, Clients.get?_next] at plays
    cases plays
  refine h.of_realm ?_ ?_ (fun other plays => ?_) loose sheet
  · rw [clients, Clients.find?_enlist, if_neg other.symm]
  · rw [clients, Clients.playerOf?_enlist, if_neg old]
  · rw [clients, Clients.playerOf?_enlist] at plays
    split at plays
    · exact absurd (Option.some.inj plays).symm apart
    · exact plays

end Followed

theorem Peopled.followed {s : Server} (ok : s.Peopled) {c : Client} {u : Realm}
    (granted : s.realm.store.insert { kind := .player { endpoint := c.endpoint } } =
      (.ok c.player, u.store)) (clients : u.clients = (s.realm.clients.enlist c).2) :
    Followed c.endpoint (s.realm.clients.enlist c).1 c.player [] s.dispatcher u := by
  obtain ⟨loose, sheet⟩ := insert_player granted
  have unused := (insert_fresh (show ¬ ElementId.invalid.isValid by decide) ok.counter granted).2
  have unsent {kind b} (bound : s.dispatcher.bindings.find? kind = some b) :
      ∀ e ∈ b.queue.line c.endpoint, e.item.sender ≠ (s.realm.clients.enlist c).1 := by
    intro e he new
    obtain ⟨_, known, _⟩ := ok.addressed kind b bound c.endpoint e he
    rw [new, Clients.get?_next] at known
    cases known
  refine ⟨?_, ?_, fun other plays => ?_, loose, fun b => unsent, fun b bound _ => ⟨[], ?_, sheet⟩⟩
  · rw [clients, Clients.find?_enlist, if_pos rfl]
  · rw [clients, Clients.playerOf?_enlist, if_pos rfl]
  · rw [clients, Clients.playerOf?_enlist] at plays
    split at plays
    · next here => exact here
    · exact absurd (ok.past other c.player plays) unused
  · have none : (b.queue.line c.endpoint).filter
        (·.item.sender = (s.realm.clients.enlist c).1) = [] :=
      List.filter_eq_nil_iff.mpr fun e he => by simpa using unsent bound e he
    unfold Queue.payloadsOf
    rw [none]
    rfl

end Server
end SharedWorld
