import SharedWorld.Proofs.Zone.Requests

/-! Who comes and who goes. A request to a world tells nobody of clients, and leaves no element on its
way out; what it may change is which players there are, and that only by bringing in an element,
writing to one, or taking some out. -/
namespace SharedWorld

/-- What everybody is told of a client. -/
inductive Visit
  | came (endpoint : Endpoint) (player : ElementId)
  | left (endpoint : Endpoint) (player : ElementId)
deriving DecidableEq

def Visit.endpoint : Visit → Endpoint
  | came endpoint _ => endpoint
  | left endpoint _ => endpoint

def WorldEvent.visit? : WorldEvent → Option Visit
  | .clientConnected endpoint player => some (.came endpoint player)
  | .clientDisconnected endpoint player _ => some (.left endpoint player)
  | _ => none

theorem Crossing.visit?_event (shape element : ElementId) (c : Crossing) :
    (c.event shape element).visit? = none := by
  cases c <;> rfl

def Element.endpoint? (e : Element) : Option Endpoint := e.player?.map (·.endpoint)

namespace Store
variable {s t : Store} {id : ElementId}

/-- The endpoint of a live player. -/
def endpoint? (s : Store) (a : ElementId) : Option Endpoint := (s.find? a).bind (·.endpoint?)

theorem endpoint?_eq_join (s : Store) (a : ElementId) :
    s.endpoint? a = ((s.find? a).map (·.endpoint?)).join := by
  unfold endpoint?
  cases s.find? a <;> rfl

theorem endpoint?_isSome {a : ElementId} :
    (∃ endpoint, s.endpoint? a = some endpoint) ↔ s.type? a = some .player := by
  unfold endpoint? type?
  cases s.find? a with
  | none => simp
  | some e =>
    cases e with | mk kind =>
    cases kind <;> simp [Element.endpoint?, Element.player?, Element.type, ElementKind.type]

theorem contains_of_endpoint? {a : ElementId} {endpoint : Endpoint}
    (h : s.endpoint? a = some endpoint) : s.contains a :=
  contains_iff_type?.mpr ⟨.player, endpoint?_isSome.mp ⟨endpoint, h⟩⟩

theorem Alike.endpoint? (h : Alike s t) (a : ElementId) : t.endpoint? a = s.endpoint? a := by
  unfold Store.endpoint?
  rw [h.find?]

theorem insert_refused_find? {e : Element} {err : WorldError} (h : s.insert e = (.error err, t))
    (a : ElementId) : t.find? a = s.find? a := by
  unfold insert at h
  split at h
  · cases h
    rfl
  · split at h <;> cases h
    rfl

theorem insert_refused {e : Element} {err : WorldError} (h : s.insert e = (.error err, t))
    (a : ElementId) : t.endpoint? a = s.endpoint? a :=
  congrArg (Option.bind · Element.endpoint?) (insert_refused_find? h a)

theorem insert_view {β : Type} {f : Element → β}
    (same : ∀ e child, f (e.addChild child) = f e) {e : Element}
    (h : s.insert e = (.ok id, t)) : ¬ s.contains id ∧ ∀ a, (t.find? a).map f =
      if a = id then some (f { e.released with id, parent := some s.root })
      else (s.find? a).map f := by
  unfold insert at h
  split at h
  · cases h
  split at h
  · cases h
  next ids free =>
  cases h
  refine ⟨assignId_free free, fun a => ?_⟩
  rw [find?_place]
  split
  · rfl
  · exact modify_view (same · id) { s with ids } s.root a

theorem insert_granted {e : Element} (h : s.insert e = (.ok id, t)) :
    ¬ s.contains id ∧ ∀ a, t.endpoint? a = if a = id then e.endpoint? else s.endpoint? a := by
  obtain ⟨free, seen⟩ := insert_view (f := Element.endpoint?) (fun _ _ => by rfl) h
  refine ⟨free, fun a => ?_⟩
  rw [endpoint?_eq_join, endpoint?_eq_join, seen]
  split
  · cases e with | mk kind => cases kind <;> rfl
  · rfl

def released? (s : Store) (a : ElementId) : Option Element := (s.find? a).map (·.released)

theorem endpoint?_eq_released (s : Store) (a : ElementId) :
    s.endpoint? a = (s.released? a).bind (·.endpoint?) := by
  unfold endpoint? released?
  cases s.find? a with
  | none => rfl
  | some e => cases e with | mk kind => cases kind <;> rfl

theorem released_updateVehicle {g : Vehicle → Vehicle} (tows : ∀ v,
    { g v with driver := none, towing := none, towedBy := none } =
      { v with driver := none, towing := none, towedBy := none }) (e : Element) :
    (e.updateVehicle g).released = e.released := by
  cases e with | mk kind =>
  cases kind with
  | vehicle v => simp [Element.released, Element.updateVehicle, tows v]
  | _ => rfl

theorem released_updatePlayer {g : Player → Player}
    (sits : ∀ p, { g p with vehicle := none } = { p with vehicle := none }) (e : Element) :
    (e.updatePlayer g).released = e.released := by
  cases e with | mk kind =>
  cases kind with
  | player p => simp [Element.released, Element.updatePlayer, sits p]
  | _ => rfl

/-- An element that is taken out of all relations leaves every element what it is. -/
theorem unlink_released? (s : Store) (id : ElementId) (e : Element) (a : ElementId) :
    (s.unlink id e).released? a = s.released? a := by
  unfold released?
  have adopted (ids : List ElementId) (s : Store) :
      ((ids.foldl adopt s).find? a).map (·.released) = (s.find? a).map (·.released) := by
    induction ids generalizing s with
    | nil => rfl
    | cons i ids ih =>
      refine (ih _).trans ?_
      exact (modify_view (fun _ => by rfl) _ s.root a).trans (modify_view (fun _ => by rfl) s i a)
  have unhung : ((s.unhang id e).find? a).map (·.released) = (s.find? a).map (·.released) :=
    (adopted _ _).trans (modifyAll_view (fun _ => by rfl) e.parent.toList s a)
  have untied (s : Store) :
      ((s.untie id e).find? a).map (·.released) = (s.find? a).map (·.released) :=
    (modifyAll_view (fun _ => by rfl) e.attached.toList _ a).trans
      (modifyAll_view (fun _ => by rfl) e.target?.toList s a)
  have vacated (s : Store) :
      ((s.vacate id e).find? a).map (·.released) = (s.find? a).map (·.released) := by
    unfold vacate
    split
    · refine (modifyAll_view (released_updatePlayer fun p => ?_) ..).trans
        ((modifyAll_view (released_updateVehicle fun _ => by rfl) ..).trans
          (modifyAll_view (released_updateVehicle fun _ => by rfl) ..))
      split <;> rfl
    · refine modifyAll_view (released_updateVehicle fun v => ?_) ..
      split <;> rfl
    · rfl
  exact (vacated _).trans ((untied _).trans unhung)

theorem evict_released? {gone : Element} (h : s.evict id = some (gone, t)) (a : ElementId) :
    t.released? a = if a = id then none else s.released? a := by
  obtain ⟨e, _, _, find⟩ := find?_evict h
  rw [← unlink_released? s id e a]
  unfold released?
  rw [find]
  split <;> rfl

theorem evict_endpoint? {gone : Element} (h : s.evict id = some (gone, t)) (a : ElementId) :
    t.endpoint? a = if a = id then none else s.endpoint? a := by
  rw [endpoint?_eq_released, endpoint?_eq_released, evict_released? h]
  split <;> rfl

theorem evict_contains {gone : Element} (h : s.evict id = some (gone, t)) {a : ElementId}
    (live : t.contains a) : s.contains a := by
  obtain ⟨l, hl⟩ := contains_iff_watchers?.mp live
  rw [watchers?_evict h] at hl
  split at hl
  · cases hl
  · exact contains_iff_watchers?.mpr ⟨l, hl⟩

theorem Alike.contains (h : Alike s t) (a : ElementId) : t.contains a ↔ s.contains a := by
  rw [contains_iff, contains_iff, h.find?]

theorem Removals.contains (h : Removals s t) {a : ElementId} (live : t.contains a) :
    s.contains a := by
  induction h with
  | alike h => exact (h.contains a).mp live
  | evict _ h => exact evict_contains h live
  | trans _ _ ih ih' => exact ih (ih' live)

/-- Those that are still there are what they were, but for their relations. -/
theorem Removals.released? (h : Removals s t) {a : ElementId} (live : t.contains a) :
    t.released? a = s.released? a := by
  induction h with
  | alike h => exact congrArg (Option.map _) (h.find? a)
  | @evict s t id gone _ h =>
    rw [evict_released? h]
    split
    · next here =>
      obtain ⟨l, hl⟩ := contains_iff_watchers?.mp live
      rw [watchers?_evict h, if_pos here] at hl
      cases hl
    · rfl
  | trans _ rest ih ih' => exact (ih' live).trans (ih (rest.contains live))

theorem Removals.endpoint? (h : Removals s t) {a : ElementId} (live : t.contains a) :
    t.endpoint? a = s.endpoint? a := by
  rw [endpoint?_eq_released, endpoint?_eq_released, h.released? live]

end Store

open Store

namespace World
variable {w u : World}

def visits (w : World) : List Visit := w.events.filterMap (·.visit?)

theorem publish_visits (w : World) (e : WorldEvent) :
    (w.publish e).visits = w.visits ++ e.visit?.toList := by
  unfold visits publish
  rw [List.filterMap_append]
  cases e <;> rfl

theorem announce_visits (w : World) (s e : ElementId) (c : Crossing) (z : Zone) :
    (w.announce s e c z).visits = w.visits := by
  rw [announce_eq]
  unfold visits
  rw [List.filterMap_append, List.filterMap_cons, Crossing.visit?_event]
  exact List.append_nil _

theorem check_visits (w : World) (s e : ElementId) : (w.check s e).2.visits = w.visits :=
  check_keeps visits (fun w => announce_visits w s e) (fun _ _ => rfl) (fun _ _ _ => rfl) w

theorem checkAll_visits (pairs : List (ElementId × ElementId)) (w : World) :
    (w.checkAll pairs).2.visits = w.visits :=
  checkAll_lifts (R := fun w u => u.visits = w.visits) (fun _ => rfl) (fun h h' => h'.trans h)
    check_visits pairs w

theorem runPass_visits (w : World) : w.runPass.2.visits = w.visits :=
  pass_lifts (R := fun w u => u.visits = w.visits) (fun _ => rfl) (fun h h' => h'.trans h)
    check_visits _ w

theorem unwatch_visits (w : World) (id : ElementId) (sub : SubscriptionId) :
    (w.unwatch id sub).2.visits = w.visits := by
  unfold visits
  rw [unwatch_events]

theorem watch_visits (w : World) (id : ElementId) (watcher : Watcher) :
    (w.watch id watcher).2.visits = w.visits := by
  rcases watch_cases w id watcher with ⟨err, h, _⟩ | ⟨l, _, _, h⟩
  · rw [h]
  · rw [h]
    rfl

theorem forget_visits (w : World) (s : ElementId) : (w.forget s).2.visits = w.visits := by
  have left (members : List (ElementId × SubscriptionId)) (w : World) :
      (members.foldl (fun w x => (w.unwatch x.1 x.2).2) w).visits = w.visits := by
    induction members generalizing w with
    | nil => rfl
    | cons m members ih => exact (ih _).trans (unwatch_visits w m.1 m.2)
  unfold forget
  split
  · rfl
  · exact left _ _

theorem register_visits (w : World) (s : ElementId) : (w.register s).2.visits = w.visits := by
  rcases register_cases w s with h | ⟨l, _, _, _, _, h⟩
  · rw [h]
  · rw [h]
    rfl

theorem createShape_visits (w : World) (geometry : Shape) (position : Vec3) :
    (w.createShape geometry position).2.visits = w.visits := by
  obtain ⟨inserted, rfl, h | ⟨id, h⟩⟩ := createShape_cases w geometry position
  · rw [h]
    rfl
  · rw [h, register_visits]
    rfl

theorem setEnabled_visits {shape : ElementId} {enabled : Bool}
    (h : w.setEnabled shape enabled = .ok u) : u.visits = w.visits := by
  obtain ⟨z, _, h⟩ := bind_eq_ok.mp h
  cases h
  rfl

theorem onCrossing_visits {shape : ElementId} {crossing : Crossing} {tag : String}
    {sub : SubscriptionId} (h : w.onCrossing shape crossing tag = .ok (sub, u)) :
    u.visits = w.visits := by
  unfold onCrossing at h
  obtain ⟨z, _, h⟩ := bind_eq_ok.mp h
  dsimp only at h
  split at h <;> cases h
  rfl

theorem unsubscribe_visits (w : World) (shape : ElementId) (sub : SubscriptionId) :
    (w.unsubscribe shape sub).2.visits = w.visits := by
  unfold unsubscribe
  split
  · rfl
  · split <;> rfl

theorem editPolygon_visits {shape : ElementId} {index : Nat}
    {edit : List Vec2 → Except WorldError (Nat × List Vec2)}
    (h : w.editPolygon shape edit = .ok (index, u)) : u.visits = w.visits := by
  obtain ⟨f, rfl⟩ := editPolygon_eq h
  exact (publish_visits ..).trans (List.append_nil _)

theorem memberDestroyed_visits (w : World) (s e : ElementId) :
    (w.memberDestroyed s e).visits = w.visits := by
  unfold memberDestroyed
  split
  · rfl
  · split
    · exact announce_visits ..
    · rfl

theorem noteCheck_visits (w : World) (tag : String) (id : ElementId) (checked : Option ElementId) :
    (w.noteCheck tag id checked).visits = w.visits := by
  cases checked with
  | none => rfl
  | some shape => exact check_visits w shape id

section Notify
variable {remove : ElementId → World → Except WorldError Element × World}
  (hr : ∀ id w, (remove id w).2.visits = w.visits)
include hr

theorem heed_visits (id : ElementId) (watcher : Watcher) (w : World) :
    (heed remove id watcher w).visits = w.visits := by
  cases watcher with
  | member shape => exact memberDestroyed_visits w shape id
  | shape => exact forget_visits w id
  | note tag checked removed =>
    have checks := noteCheck_visits (w.call (.destroyed tag id (w.store.contains id))) tag id checked
    refine Eq.trans ?_ checks
    cases removed with
    | none => rfl
    | some other => exact hr other _

theorem notify_visits (id : ElementId) (watchers : List Watcher) (w : World) :
    (notify remove id watchers w).visits = w.visits := by
  induction watchers generalizing w with
  | nil => rfl
  | cons watcher rest ih =>
    rw [notify_cons, ih]
    exact heed_visits hr id watcher w

end Notify

theorem removeWithin_visits (depth : Nat) (id : ElementId) (w : World) :
    (removeWithin depth id w).2.visits = w.visits := by
  induction depth generalizing id w with
  | zero => rfl
  | succ depth ih =>
    rcases removeWithin_told (depth + 1) id w with ⟨err, h, _⟩ | ⟨n, l, told, hn, _, _, ht, h⟩
    · rw [h]
    · cases hn
      have heard : told.visits = w.visits := ht ▸ notify_visits ih id l.audience (w.closing id l)
      rw [h]
      split <;> exact heard

theorem perform_visits (w : World) (op : Op) : (w.perform op).visits = w.visits := by
  have granted {answer : Except WorldError World}
      (done : ∀ u, answer = .ok u → u.visits = w.visits) : (w.after answer).visits = w.visits :=
    after_cases (P := fun u => u.visits = w.visits) rfl done
  have granted_map {α : Type} {answer : Except WorldError (α × World)}
      (done : ∀ a u, answer = .ok (a, u) → u.visits = w.visits) :
      (w.after (answer.map (·.2))).visits = w.visits :=
    after_map_cases (P := fun u => u.visits = w.visits) rfl done
  cases op with
  | store op => rfl
  | remove id => exact removeWithin_visits _ id w
  | watch id watcher => exact watch_visits w id watcher
  | unwatch id sub => exact unwatch_visits w id sub
  | createShape geometry position => exact createShape_visits w geometry position
  | register shape => exact register_visits w shape
  | forget shape => exact forget_visits w shape
  | setEnabled shape enabled => exact granted fun _ => setEnabled_visits
  | onCrossing shape crossing tag => exact granted_map fun _ _ => onCrossing_visits
  | unsubscribe shape sub => exact unsubscribe_visits w shape sub
  | check shape element => exact check_visits w shape element
  | checkEverywhere element => exact checkAll_visits _ w
  | runPass => exact runPass_visits w
  | addVertex shape p index => exact granted_map fun _ _ => editPolygon_visits
  | setVertex shape index p =>
    refine granted fun u h => ?_
    obtain ⟨_, _, h⟩ := setVertex_edits h
    exact editPolygon_visits h
  | removeVertex shape index =>
    refine granted_map fun _ u h => ?_
    obtain ⟨_, _, h⟩ := removeVertex_edits h
    exact editPolygon_visits h

theorem insert_performs {e : Element} {answer : Except WorldError ElementId}
    (made : w.insert e = (answer, u)) :
    w.store.insert e = (answer, u.store) ∧ u = w.perform (.store (.insert e)) := by
  have done : w.perform (.store (.insert e)) = u := congrArg Prod.snd made
  have given : (w.insert e).1 = answer := congrArg Prod.fst made
  exact ⟨Prod.ext given (congrArg World.store done), done.symm⟩

theorem perform_shut (w : World) (op : Op) {id : ElementId} (shut : (w.perform op).Shut id) :
    w.Shut id := by
  cases op with
  | unwatch other sub => exact (unwatch_shut w other sub id).mp shut
  | _ => exact (perform_regular w (by trivial)).shut id shut

theorem remove_endpoint? (opened : ∀ a, ¬ w.Shut a) {id : ElementId} (live : w.store.contains id)
    (notRoot : id ≠ w.store.root) : (w.remove id).2.store.endpoint? id = none := by
  rcases removeWithin_ended (w.store.size + 1) id w with
    ⟨err, _, cause⟩ | ⟨⟨gone, granted⟩, _⟩
  · rcases cause with zero | root | absent | shut
    · cases zero
    · exact absurd root notRoot
    · exact absurd live absent
    · exact absurd shut (opened id)
  · obtain ⟨_, before, _, evicted⟩ := (removeWithin_removals _ id w).2 gone granted
    exact (evict_endpoint? evicted id).trans (if_pos rfl)

/-- The end of a player takes no other player along. -/
def Spares (w : World) (player : ElementId) : Prop :=
  ∀ a, a ≠ player → w.store.type? a = some .player → (w.remove player).2.store.contains a

theorem Spares.endpoint? {player a : ElementId} (h : w.Spares player) (other : a ≠ player) :
    (w.remove player).2.store.endpoint? a = w.store.endpoint? a := by
  have gone := (removeWithin_removals (w.store.size + 1) player w).1
  cases before : w.store.endpoint? a with
  | some endpoint =>
    rw [← before]
    exact gone.endpoint? (h a other (endpoint?_isSome.mp ⟨endpoint, before⟩))
  | none =>
    cases after : (w.remove player).2.store.endpoint? a with
    | none => rfl
    | some endpoint =>
      have live := contains_of_endpoint? after
      exact (after.symm.trans ((gone.endpoint? live).trans before))

/-- Nobody watches anything, and no shape is kept track of. -/
structure Bare (w : World) : Prop where
  zones : w.zones = .empty
  watchers : ∀ id l, w.store.watchers? id = some l → l = {}

namespace Bare

theorem publish (bare : w.Bare) (e : WorldEvent) : (w.publish e).Bare := ⟨bare.zones, bare.watchers⟩

theorem stored (bare : w.Bare) (op : Store.Op) : (w.perform (.store op)).Bare where
  zones := bare.zones
  watchers id l hl := by
    have hl : (w.store.perform op).watchers? id = some l := hl
    rcases perform_registry w.store op id with same | ⟨_, new⟩
    · exact bare.watchers id l (same.symm.trans hl)
    · exact Option.some.inj (hl.symm.trans new)

theorem runPass (bare : w.Bare) : w.runPass = (0, w) := by
  unfold World.runPass
  rw [bare.zones]
  rfl

theorem remove (bare : w.Bare) (id : ElementId) : (w.remove id).2.Bare ∧ w.Spares id := by
  unfold Spares World.remove
  rcases removeWithin_told (w.store.size + 1) id w with ⟨err, h, _⟩ | ⟨n, l, told, _, hl, _, ht, h⟩
  · rw [h]
    exact ⟨bare, fun a _ live => contains_iff_type?.mpr ⟨_, live⟩⟩
  have nobody := bare.watchers id l hl
  subst nobody
  have alone : told = w.withWatchers id { closed := true } := ht
  have watchers (a) : told.store.watchers? a =
      if a = id then (w.store.watchers? a).map fun _ => { closed := true }
      else w.store.watchers? a := by
    rw [alone, withWatchers_watchers?]
  have still : told.store.contains id :=
    contains_iff_watchers?.mpr ⟨{ closed := true }, by rw [watchers, if_pos rfl, hl]; rfl⟩
  obtain ⟨gone, t, hev⟩ := evict_of_contains still
  rw [h, hev]
  have others {a} (other : a ≠ id) : t.watchers? a = w.store.watchers? a := by
    rw [watchers?_evict hev, if_neg other, watchers, if_neg other]
  refine ⟨⟨alone ▸ bare.zones, fun a l ha => ?_⟩, fun a other live => ?_⟩
  · by_cases here : a = id
    · have ha : t.watchers? a = some l := ha
      rw [watchers?_evict hev, if_pos here] at ha
      cases ha
    · exact bare.watchers a l ((others here).symm.trans ha)
  · have before : w.store.contains a := contains_iff_type?.mpr ⟨_, live⟩
    rw [contains_iff_watchers?, ← others other] at before
    exact contains_iff_watchers?.mpr before

end Bare

end World
end SharedWorld
