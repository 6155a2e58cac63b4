import SharedWorld.Proofs.Zone.Requests

/-! Taking back a subscription to the crossings of a shape. Those who hear of elements entering and
those who hear of elements leaving are numbered apart, and a number is looked for among the first and
then among the others: it is taken for another subscription where both have given it out. -/
namespace SharedWorld

def Zone.listeners (z : Zone) : Crossing → Listeners String
  | .entered => z.entered
  | .left => z.left

def Zone.withListeners (z : Zone) (c : Crossing) (l : Listeners String) : Zone :=
  match c with
  | .entered => { z with entered := l }
  | .left => { z with left := l }

theorem Zone.withListeners_listeners (z : Zone) (c : Crossing) (l : Listeners String) :
    (z.withListeners c l).listeners = fun d => if d = c then l else z.listeners d := by
  funext d
  cases c <;> cases d <;> rfl

open Store

namespace World
variable {w u v : World} {shape : ElementId} {sub : SubscriptionId}

def listeners? (w : World) (shape : ElementId) : Option (Crossing → Listeners String) :=
  (w.zones.find? shape).map (·.listeners)

def registered (w : World) (shape : ElementId) (c : Crossing) : List (SubscriptionId × String) :=
  match w.listeners? shape with
  | some l => (l c).entries
  | none => []

def Leaves (shape : ElementId) (w u : World) : Prop :=
  u.listeners? shape = w.listeners? shape ∨ u.listeners? shape = none

theorem Leaves.refl (shape : ElementId) (w : World) : Leaves shape w w := .inl rfl

theorem Leaves.trans (h : Leaves shape w u) (h' : Leaves shape u v) : Leaves shape w v := by
  cases h' with
  | inl same => exact h.imp same.trans same.trans
  | inr gone => exact .inr gone

theorem announce_listeners? (w : World) (s e : ElementId) (c : Crossing) (z : Zone) :
    (w.announce s e c z).listeners? shape = w.listeners? shape := by
  rw [announce_eq]
  rfl

theorem modifyZone_listeners? (f : Zone → Zone) (same : ∀ z, (f z).listeners = z.listeners)
    (w : World) (s : ElementId) : (w.modifyZone s f).listeners? shape = w.listeners? shape := by
  unfold listeners?
  rw [find?_modifyZone]
  split
  · simp [Function.comp_def, same]
  · rfl

theorem check_leaves (w : World) (s e : ElementId) : Leaves shape w (w.check s e).2 :=
  .inl (check_keeps (listeners? · shape) (fun w => announce_listeners? w s e) (fun _ _ => rfl)
    (fun w move _ =>
      modifyZone_listeners? (fun z => { z with members := move z.members }) (fun _ => rfl) w s) w)

theorem memberDestroyed_leaves (w : World) (s e : ElementId) :
    Leaves shape w (w.memberDestroyed s e) := by
  unfold memberDestroyed
  split
  · exact .refl shape w
  · split
    · exact .inl ((announce_listeners? ..).trans
        (modifyZone_listeners? (fun z => { z with members := z.members.erase e }) (fun _ => rfl) w s))
    · exact .refl shape w

theorem forget_leaves (w : World) (s : ElementId) : Leaves shape w (w.forget s).2 := by
  unfold Leaves listeners?
  rw [forget_zones]
  split
  · exact .inr rfl
  · exact .inl rfl

section Notify
variable {remove : ElementId → World → Except WorldError Element × World}
  (hr : ∀ id w, Leaves shape w (remove id w).2)
include hr

theorem heed_leaves (id : ElementId) (watcher : Watcher) (w : World) :
    Leaves shape w (heed remove id watcher w) := by
  cases watcher with
  | member s => exact memberDestroyed_leaves w s id
  | shape => exact forget_leaves w id
  | note tag checked removed =>
    let noted := w.call (.destroyed tag id (w.store.contains id))
    have first : Leaves shape noted (noted.noteCheck tag id checked) := by
      cases checked with
      | none => exact .refl shape noted
      | some s => exact check_leaves noted s id
    have second (u : World) : Leaves shape u (u.noteRemoval remove tag removed) := by
      cases removed with
      | none => exact .refl shape u
      | some other => exact hr other u
    exact first.trans (second _)

theorem notify_leaves (id : ElementId) (watchers : List Watcher) (w : World) :
    Leaves shape w (notify remove id watchers w) := by
  induction watchers generalizing w with
  | nil => exact .refl shape w
  | cons watcher rest ih =>
    rw [notify_cons]
    exact (heed_leaves hr id watcher w).trans (ih _)

end Notify

theorem removeWithin_leaves (depth : Nat) (id : ElementId) (w : World) :
    Leaves shape w (removeWithin depth id w).2 := by
  induction depth generalizing id w with
  | zero => exact .refl shape w
  | succ depth ih =>
    rcases removeWithin_told (depth + 1) id w with ⟨err, h, _⟩ | ⟨n, l, told, hn, _, _, ht, h⟩
    · rw [h]
      exact .refl shape w
    · cases hn
      have heard : Leaves shape w told := ht ▸ notify_leaves ih id l.audience (w.closing id l)
      rw [h]
      split <;> exact heard

theorem register_listeners? (w : World) (s : ElementId) : Leaves shape w (w.register s).2 ∨
    w.listeners? shape = none ∧ (w.register s).2.listeners? shape = some fun _ => {} := by
  rcases register_cases w s with h | ⟨l, unknown, _, _, _, h⟩
  · rw [h]
    exact .inl (.refl shape w)
  · rw [h]
    by_cases here : shape = s
    · subst here
      refine .inr ⟨?_, ?_⟩
      · simpa [listeners?, tracks, Table.contains] using unknown
      · simp only [listeners?, Table.find?_insert, if_pos, Option.map_some]
        congr 1
        funext c
        cases c <;> rfl
    · refine .inl (.inl ?_)
      simp only [listeners?, Table.find?_insert, if_neg here]

theorem editPolygon_leaves {s : ElementId} {index : Nat}
    {edit : List Vec2 → Except WorldError (Nat × List Vec2)}
    (h : w.editPolygon s edit = .ok (index, u)) : Leaves shape w u := by
  obtain ⟨f, rfl⟩ := editPolygon_eq h
  exact .refl shape w

theorem modifyZone_withListeners {z : Zone} {s : ElementId} (hz : w.zones.find? s = some z)
    (c : Crossing) (l : Listeners String) (a : ElementId) :
    (w.modifyZone s (·.withListeners c l)).listeners? a =
      if a = s then some fun d => if d = c then l else z.listeners d else w.listeners? a := by
  unfold listeners?
  rw [find?_modifyZone]
  split
  · next same => rw [same, hz, Option.map_some, Option.map_some, Zone.withListeners_listeners]
  · rfl

theorem onCrossing_eq (w : World) (s : ElementId) (c : Crossing) (tag : String) :
    w.onCrossing s c tag = match w.zones.find? s with
      | none => .error (.notFound s)
      | some z =>
        if (z.listeners c).closed then .error (.notFound s)
        else .ok (⟨(z.listeners c).next⟩,
          w.modifyZone s (·.withListeners c ((z.listeners c).subscribe tag).2)) := by
  unfold onCrossing zone
  cases w.zones.find? s with
  | none => rfl
  | some z =>
    cases c with
    | entered =>
      cases closed : z.entered.closed <;>
        simp [Listeners.subscribe, Zone.listeners, closed, bind, Except.bind, pure, Except.pure,
          throw, throwThe, MonadExceptOf.throw, Zone.withListeners]
    | left =>
      cases closed : z.left.closed <;>
        simp [Listeners.subscribe, Zone.listeners, closed, bind, Except.bind, pure, Except.pure,
          throw, throwThe, MonadExceptOf.throw, Zone.withListeners]

theorem onCrossing_cases (w : World) (s : ElementId) (c : Crossing) (tag : String) :
    (∃ err, w.onCrossing s c tag = .error err ∧
      ∀ l, w.listeners? s = some l → (l c).closed = true) ∨
    ∃ l u, w.listeners? s = some l ∧ (l c).closed = false ∧
      w.onCrossing s c tag = .ok (⟨(l c).next⟩, u) ∧
      ∀ a, u.listeners? a = if a = s then
          some fun d => if d = c then ((l c).subscribe tag).2 else l d
        else w.listeners? a := by
  rw [onCrossing_eq]
  unfold listeners?
  cases hz : w.zones.find? s with
  | none => exact .inl ⟨_, rfl, nofun⟩
  | some z =>
    dsimp only [Option.map_some]
    cases closed : (z.listeners c).closed with
    | true => exact .inl ⟨_, if_pos rfl, fun l hl => Option.some.inj hl ▸ closed⟩
    | false => exact .inr ⟨z.listeners, _, rfl, closed, if_neg nofun, modifyZone_withListeners hz c _⟩

/-- The side on which a number is found if it is found at all. -/
def side (w : World) (s : ElementId) (sub : SubscriptionId) : Crossing :=
  if (w.registered s .entered).any (·.1 = sub) then .entered else .left

theorem unsubscribe_eq (w : World) (s : ElementId) (sub : SubscriptionId) :
    w.unsubscribe s sub = match w.zones.find? s with
      | none => (false, w)
      | some z => ((z.listeners (w.side s sub)).entries.any (·.1 = sub),
          w.modifyZone s (·.withListeners (w.side s sub)
            ((z.listeners (w.side s sub)).unsubscribe sub).2)) := by
  unfold unsubscribe side registered listeners?
  cases w.zones.find? s with
  | none => rfl
  | some z =>
    dsimp only [Option.map_some, Zone.listeners, Listeners.unsubscribe]
    by_cases found : z.entered.entries.any (·.1 = sub) = true
    · simp only [found, if_true, Zone.withListeners]
    · rw [Bool.not_eq_true] at found
      simp only [found, Bool.false_eq_true, if_false, Zone.withListeners]

theorem unsubscribe_found (w : World) (s : ElementId) (sub : SubscriptionId) :
    (w.unsubscribe s sub).1 = (w.registered s (w.side s sub)).any (·.1 = sub) := by
  rw [unsubscribe_eq]
  unfold registered listeners?
  cases w.zones.find? s <;> rfl

theorem unsubscribe_listeners? (w : World) (s a : ElementId) (sub : SubscriptionId) :
    (w.unsubscribe s sub).2.listeners? a = if a = s then
        (w.listeners? s).map fun l c => if c = w.side s sub then ((l c).unsubscribe sub).2 else l c
      else w.listeners? a := by
  rw [unsubscribe_eq]
  cases hz : w.zones.find? s with
  | none =>
    dsimp only
    split
    · next same =>
      subst same
      simp [listeners?, hz]
    · rfl
  | some z =>
    refine (modifyZone_withListeners hz ..).trans ?_
    split
    · simp only [listeners?, hz, Option.map_some]
      congr 1
      funext c
      split
      · next same => rw [same]
      · rfl
    · rfl

def Op.Subscribes (shape : ElementId) : Op → Prop
  | .onCrossing s _ _ | .unsubscribe s _ => s = shape
  | _ => False

theorem perform_listeners? (w : World) {op : Op} (apart : ¬ op.Subscribes shape) :
    Leaves shape w (w.perform op) ∨
      w.listeners? shape = none ∧ (w.perform op).listeners? shape = some fun _ => {} := by
  have refused : Leaves shape w w := .refl shape w
  cases op with
  | store op => exact .inl refused
  | remove id => exact .inl (removeWithin_leaves _ id w)
  | watch id watcher =>
    refine .inl ?_
    change Leaves shape w (w.watch id watcher).2
    rcases watch_cases w id watcher with ⟨err, h, _⟩ | ⟨l, _, _, h⟩ <;> rw [h] <;> exact refused
  | unwatch id sub =>
    exact .inl (.inl (congrArg (fun zones => (zones.find? shape).map (·.listeners))
      (unwatch_zones w id sub)))
  | createShape geometry position =>
    obtain ⟨inserted, rfl, h | ⟨id, h⟩⟩ := createShape_cases w geometry position
    · refine .inl ?_
      change Leaves shape w (w.createShape geometry position).2
      rw [h]
      exact .refl shape w
    · change Leaves shape w (w.createShape geometry position).2 ∨ w.listeners? shape = none ∧
        (w.createShape geometry position).2.listeners? shape = some fun _ => {}
      rw [h]
      exact register_listeners?
        { w with store := w.store.perform (.insert { kind := .shape geometry, position }) } id
  | register s => exact register_listeners? w s
  | forget s => exact .inl (forget_leaves w s)
  | setEnabled s enabled =>
    refine .inl (after_cases (P := Leaves shape w) refused fun u h => ?_)
    obtain ⟨z, _, h⟩ := bind_eq_ok.mp h
    cases h
    exact .inl (modifyZone_listeners? ({ · with enabled }) (fun _ => rfl) w s)
  | onCrossing s crossing tag =>
    refine .inl (after_map_cases (P := Leaves shape w) refused fun _ u h => ?_)
    rcases onCrossing_cases w s crossing tag with ⟨err, hs, _⟩ | ⟨l, u', _, _, hs, kept⟩
    · exact absurd (hs.symm.trans h) nofun
    · cases hs.symm.trans h
      exact .inl ((kept shape).trans (if_neg (Ne.symm apart)))
  | unsubscribe s sub =>
    exact .inl (.inl ((unsubscribe_listeners? w s shape sub).trans (if_neg (Ne.symm apart))))
  | check s element => exact .inl (check_leaves w s element)
  | checkEverywhere element =>
    exact .inl (checkAll_lifts (.refl shape) .trans check_leaves _ w)
  | runPass => exact .inl (pass_lifts (.refl shape) .trans check_leaves _ w)
  | addVertex s p index =>
    exact .inl (after_map_cases (P := Leaves shape w) refused fun _ u h => editPolygon_leaves h)
  | setVertex s index p =>
    refine .inl (after_cases (P := Leaves shape w) refused fun u h => ?_)
    obtain ⟨_, _, h⟩ := setVertex_edits h
    exact editPolygon_leaves h
  | removeVertex s index =>
    refine .inl (after_map_cases (P := Leaves shape w) refused fun _ u h => ?_)
    obtain ⟨_, _, h⟩ := removeVertex_edits h
    exact editPolygon_leaves h

theorem tracks_eq (w : World) (s : ElementId) : w.tracks s = (w.listeners? s).isSome := by
  unfold tracks listeners? Table.contains
  rw [Option.isSome_map]

theorem registered_of {l : Crossing → Listeners String} (h : w.listeners? shape = some l)
    (c : Crossing) : w.registered shape c = (l c).entries := by
  unfold registered
  rw [h]

theorem registered_of_none (h : w.listeners? shape = none) (c : Crossing) :
    w.registered shape c = [] := by
  unfold registered
  rw [h]

theorem unsubscribe_registered (w : World) (s : ElementId) (sub : SubscriptionId) (c : Crossing) :
    (w.unsubscribe s sub).2.registered s c = if c = w.side s sub then
        (w.registered s c).filter (·.1 ≠ sub)
      else w.registered s c := by
  have after := unsubscribe_listeners? w s s sub
  rw [if_pos rfl] at after
  cases h : w.listeners? s with
  | none =>
    rw [h] at after
    rw [registered_of_none after, registered_of_none h]
    split <;> rfl
  | some l =>
    rw [h] at after
    rw [registered_of after, registered_of h]
    dsimp only
    split <;> rfl

/-- A subscription that was granted to the crossings of a shape. -/
structure Subscription where
  crossing : Crossing
  id : SubscriptionId
  tag : String
  -- it was not taken back, and the shape is still kept track of
  active : Bool := true
deriving DecidableEq

namespace Subscription
variable {made : List Subscription} {s : Subscription} {c : Crossing} {i : Nat}

def retire (s : Subscription) : Subscription := { s with active := false }

/-- Whom the active subscriptions to one kind of crossing are for. -/
def due (made : List Subscription) (c : Crossing) : List (SubscriptionId × String) :=
  (made.filter fun s => s.active && s.crossing = c).map fun s => (s.id, s.tag)

/-- An active subscription to that kind of crossing has the number. -/
def Taken (made : List Subscription) (c : Crossing) (id : SubscriptionId) : Prop :=
  ∃ t ∈ made, t.active ∧ t.crossing = c ∧ t.id = id

/-- The number of the subscription made as the `i`-th is taken for that of another: it is one to hear
of elements leaving, and one to hear of elements entering has the same number; or it is not active, and
one that is has its number. -/
def Mistaken (made : List Subscription) (i : Nat) : Prop :=
  ∃ s, made[i]? = some s ∧
    if s.active then s.crossing = .left ∧ Taken made .entered s.id else ∃ c, Taken made c s.id

theorem mistaken_iff (h : made[i]? = some s) : Mistaken made i ↔
    if s.active then s.crossing = .left ∧ Taken made .entered s.id else ∃ c, Taken made c s.id := by
  unfold Mistaken
  rw [h]
  simp

/-- No two active subscriptions to one kind of crossing have the same number. -/
def Distinct (made : List Subscription) : Prop := ∀ c, ((due made c).map (·.1)).Nodup

theorem mem_due {x : SubscriptionId × String} :
    x ∈ due made c ↔ ∃ s ∈ made, s.active ∧ s.crossing = c ∧ (s.id, s.tag) = x := by
  simp [due, and_assoc]

theorem taken_iff {id : SubscriptionId} : Taken made c id ↔ id ∈ (due made c).map (·.1) := by
  simp [Taken, due, and_assoc]

theorem due_cons (s : Subscription) (made : List Subscription) (c : Crossing) :
    due (s :: made) c = if s.active ∧ s.crossing = c then (s.id, s.tag) :: due made c
      else due made c := by
  unfold due
  rw [List.filter_cons]
  by_cases h : s.active ∧ s.crossing = c <;> simp [h]

theorem due_append (made made' : List Subscription) (c : Crossing) :
    due (made ++ made') c = due made c ++ due made' c := by
  simp [due]

theorem due_of_retired (h : ∀ s ∈ made, ¬ s.active) (c : Crossing) : due made c = [] := by
  rw [List.eq_nil_iff_forall_not_mem]
  intro x hx
  obtain ⟨s, hs, active, _⟩ := mem_due.mp hx
  exact h s hs active

theorem filter_due {id : SubscriptionId} :
    (due made c).filter (·.1 ≠ id) = due made c ↔ ¬ Taken made c id := by
  rw [List.filter_eq_self, taken_iff, List.mem_map]
  constructor
  · rintro apart ⟨x, hx, rfl⟩
    simpa using apart x hx
  · intro free x hx
    simpa using fun same => free ⟨x, hx, same⟩

theorem due_retire (single : Distinct made) (h : made[i]? = some s) (c : Crossing) :
    due (made.modify i retire) c = if s.active ∧ s.crossing = c then
        (due made c).filter (·.1 ≠ s.id)
      else due made c := by
  induction made generalizing i with
  | nil => exact absurd h nofun
  | cons t made ih =>
    have rest : Distinct made := fun c => by
      have all := single c
      rw [due_cons] at all
      split at all
      · exact all.of_cons
      · exact all
    have apart (ht : t.active ∧ t.crossing = c) : ¬ Taken made c t.id := by
      have all := single c
      rw [due_cons, if_pos ht, List.map_cons, List.nodup_cons] at all
      exact fun taken => all.1 (taken_iff.mp taken)
    -- The first one is taken back, or keeps a number that no other has.
    cases i with
    | zero =>
      cases h
      rw [List.modify_zero_cons, due_cons, due_cons, if_neg (by simp [retire])]
      split
      · next hs => rw [List.filter_cons_of_neg (by simp), filter_due.mpr (apart hs)]
      · rfl
    | succ i =>
      have h : made[i]? = some s := h
      rw [List.modify_succ_cons, due_cons, due_cons, ih rest h]
      split
      · next ht =>
        split
        · next hs =>
          have other : t.id ≠ s.id := fun same =>
            apart ht ⟨s, List.mem_of_getElem? h, hs.1, hs.2, same.symm⟩
          rw [List.filter_cons_of_pos (by simpa using other)]
        · rfl
      · rfl

theorem Distinct.add (h : Distinct made) (new : ¬ Taken made s.crossing s.id) :
    Distinct (made ++ [s]) := by
  intro c
  rw [due_append, due_cons, List.map_append]
  split
  · next same =>
    rw [taken_iff, same.2] at new
    refine List.nodup_append.mpr ⟨h c, List.nodup_singleton _, fun a ha b hb equal => ?_⟩
    cases List.mem_singleton.mp hb
    have equal : a = s.id := equal
    exact new (equal ▸ ha)
  · simpa [due] using h c

theorem filter_eq_erase (h : Distinct made) (hs : s ∈ made) (active : s.active) :
    (due made s.crossing).filter (·.1 ≠ s.id) = (due made s.crossing).erase (s.id, s.tag) := by
  have here : (s.id, s.tag) ∈ due made s.crossing := mem_due.mpr ⟨s, hs, active, rfl, rfl⟩
  rw [(h s.crossing).of_map.erase_eq_filter]
  refine List.filter_congr fun x hx => ?_
  have same : x.1 = s.id ↔ x = (s.id, s.tag) :=
    ⟨fun hid => List.inj_on_of_nodup_map (h s.crossing) hx here hid, fun hx => congrArg (·.1) hx⟩
  simp only [same, ne_eq, bne, decide_not, beq_eq_decide]

theorem mem_of_active {t : Subscription} (h : t ∈ made.modify i retire) (active : t.active) :
    t ∈ made := by
  obtain ⟨j, hj⟩ := List.mem_iff_getElem?.mp h
  rw [List.getElem?_modify] at hj
  obtain ⟨s, hs, same⟩ := Option.map_eq_some_iff.mp hj
  split at same
  · cases same
    exact absurd active nofun
  · exact same ▸ List.mem_of_getElem? hs

end Subscription

open Subscription (due retire Mistaken Taken Distinct due_append due_cons
  due_of_retired due_retire mem_of_active taken_iff filter_due mem_due
  mistaken_iff filter_eq_erase)

/-- A world, and the subscriptions to the crossings of a shape that were granted in it. -/
structure Desk where
  world : World
  made : List Subscription := []

inductive Request (shape : ElementId)
  | subscribe (crossing : Crossing) (tag : String)
  | cancel (made : Nat)
  | other (op : Op) (apart : ¬ op.Subscribes shape)

namespace Desk
variable {d : Desk}

def step (d : Desk) : Request shape → Desk
  | .subscribe crossing tag =>
    match d.world.onCrossing shape crossing tag with
    | .ok (id, world) => ⟨world, d.made ++ [{ crossing, id, tag }]⟩
    | .error _ => d
  | .cancel i =>
    match d.made[i]? with
    | some s => ⟨(d.world.unsubscribe shape s.id).2, d.made.modify i retire⟩
    | none => d
  | .other op _ =>
    let world := d.world.perform op
    ⟨world, if world.tracks shape then d.made else d.made.map retire⟩

def run (d : Desk) (requests : List (Request shape)) : Desk := requests.foldl step d

/-- Whoever has an active subscription is registered, and nobody else. -/
def InStep (shape : ElementId) (d : Desk) : Prop :=
  ∀ c, d.world.registered shape c = due d.made c

/-- What the active subscriptions have to do with the registries of the shape. -/
structure Sound (shape : ElementId) (d : Desk) : Prop where
  opened : ∀ {l}, d.world.listeners? shape = some l → ∀ c, (l c).closed = false
  below : ∀ {l}, d.world.listeners? shape = some l →
    ∀ s ∈ d.made, s.active → s.id.number < (l s.crossing).next
  void : d.world.listeners? shape = none → ∀ s ∈ d.made, ¬ s.active
  single : Distinct d.made

/-- Nobody has an active subscription, and nobody is registered. -/
structure Idle (shape : ElementId) (d : Desk) : Prop where
  retired : ∀ s ∈ d.made, ¬ s.active
  empty : ∀ l, d.world.listeners? shape = some l → l = fun _ => {}

theorem Idle.sound (h : d.Idle shape) : d.Sound shape where
  opened hl c := by
    rw [h.empty _ hl]
  below _ s hs active := absurd active (h.retired s hs)
  void _ := h.retired
  single c := by
    rw [due_of_retired h.retired]
    exact .nil

theorem Idle.inStep (h : d.Idle shape) : d.InStep shape := by
  intro c
  rw [due_of_retired h.retired]
  cases hl : d.world.listeners? shape with
  | none => exact registered_of_none hl c
  | some l => rw [registered_of hl, h.empty l hl]

theorem subscribe_cases (d : Desk) (shape : ElementId) (c : Crossing) (tag : String) :
    d.step (.subscribe c tag : Request shape) = d ∨ ∃ l u, d.world.listeners? shape = some l ∧
      (l c).closed = false ∧ d.step (.subscribe c tag : Request shape) =
        ⟨u, d.made ++ [{ crossing := c, id := ⟨(l c).next⟩, tag }]⟩ ∧
      u.listeners? shape = some fun d => if d = c then ((l c).subscribe tag).2 else l d := by
  rcases onCrossing_cases d.world shape c tag with ⟨err, he, _⟩ | ⟨l, u, hl, opened, hu, after⟩
  · exact .inl (by simp only [step, he])
  · exact .inr ⟨l, u, hl, opened, by simp only [step, hu], (after shape).trans (if_pos rfl)⟩

theorem cancel_cases (d : Desk) (shape : ElementId) (i : Nat) :
    d.made[i]? = none ∧ d.step (.cancel i : Request shape) = d ∨ ∃ s, d.made[i]? = some s ∧
      d.step (.cancel i : Request shape) =
        ⟨(d.world.unsubscribe shape s.id).2, d.made.modify i retire⟩ := by
  cases h : d.made[i]? with
  | none => exact .inl ⟨rfl, by simp only [step, h]⟩
  | some s => exact .inr ⟨s, rfl, by simp only [step, h]⟩

theorem Sound.other (h : d.Sound shape) {op : Op} (apart : ¬ op.Subscribes shape) :
    ((d.step (.other op apart)).made = d.made ∧
      (d.step (.other op apart)).world.listeners? shape = d.world.listeners? shape) ∨
    (d.step (.other op apart)).Idle shape := by
  have made : (d.step (.other op apart)).made =
      if ((d.world.perform op).listeners? shape).isSome then d.made else d.made.map retire := by
    rw [← tracks_eq]
    rfl
  have gone (none : (d.world.perform op).listeners? shape = none) :
      (d.step (.other op apart)).Idle shape := by
    refine ⟨fun s hs => ?_, fun l hl => absurd (none.symm.trans hl) nofun⟩
    rw [made, none, if_neg nofun] at hs
    obtain ⟨t, _, rfl⟩ := List.mem_map.mp hs
    exact nofun
  rcases perform_listeners? d.world apart with (same | none) | ⟨before, after⟩
  · cases hl : (d.world.perform op).listeners? shape with
    | none => exact .inr (gone hl)
    | some l =>
      rw [hl] at made
      exact .inl ⟨made.trans (if_pos rfl), same⟩
  · exact .inr (gone none)
  · rw [after] at made
    have made := made.trans (if_pos rfl)
    exact .inr ⟨made ▸ h.void before, fun l hl => Option.some.inj (hl.symm.trans after)⟩

theorem Sound.fresh (h : d.Sound shape) {l : Crossing → Listeners String}
    (hl : d.world.listeners? shape = some l) (c : Crossing) : ¬ Taken d.made c ⟨(l c).next⟩ := by
  rintro ⟨t, ht, active, rfl, same⟩
  have below := h.below hl t ht active
  rw [same] at below
  exact Nat.lt_irrefl _ below

theorem Sound.subscribe (h : d.Sound shape) (c : Crossing) (tag : String) :
    (d.step (.subscribe c tag : Request shape)).Sound shape := by
  rcases subscribe_cases d shape c tag with same | ⟨l, u, hl, opened, hd, after⟩
  · rw [same]
    exact h
  rw [hd]
  have next : ((l c).subscribe tag).2.next = (l c).next + 1 := by
    simp [Listeners.subscribe, opened]
  refine ⟨fun hl' k => ?_, fun hl' s hs active => ?_, fun none => ?_, fun k => ?_⟩
  · cases after.symm.trans hl'
    dsimp only
    split
    · exact (subscribe_closed ..).trans opened
    · exact h.opened hl k
  · cases after.symm.trans hl'
    dsimp only
    rcases List.mem_append.mp hs with hs | hs
    · have below := h.below hl s hs active
      split
      · next same =>
        rw [next, ← same]
        exact Nat.lt_succ_of_lt below
      · exact below
    · cases List.mem_singleton.mp hs
      rw [if_pos rfl, next]
      exact Nat.lt_succ_self _
  · exact absurd (after.symm.trans none) (Option.some_ne_none _)
  · exact h.single.add (h.fresh hl c) k

theorem Sound.cancel (h : d.Sound shape) (i : Nat) :
    (d.step (.cancel i : Request shape)).Sound shape := by
  rcases cancel_cases d shape i with ⟨_, same⟩ | ⟨s, hs, hd⟩
  · rw [same]
    exact h
  rw [hd]
  have unsubscribed := (unsubscribe_listeners? d.world shape shape s.id).trans (if_pos rfl)
  have before {l'} (hl' : (d.world.unsubscribe shape s.id).2.listeners? shape = some l') :
      ∃ l, d.world.listeners? shape = some l ∧
        ∀ c, (l' c).closed = (l c).closed ∧ (l' c).next = (l c).next := by
    obtain ⟨l, hl, rfl⟩ := Option.map_eq_some_iff.mp (unsubscribed.symm.trans hl')
    refine ⟨l, hl, fun c => ?_⟩
    dsimp only
    split <;> exact ⟨rfl, rfl⟩
  refine ⟨fun hl' c => ?_, fun hl' t ht active => ?_, fun none t ht active => ?_, fun c => ?_⟩
  · obtain ⟨l, hl, same⟩ := before hl'
    exact (same c).1.trans (h.opened hl c)
  · obtain ⟨l, hl, same⟩ := before hl'
    rw [(same _).2]
    exact h.below hl t (mem_of_active ht active) active
  · have none := Option.map_eq_none_iff.mp (unsubscribed.symm.trans none)
    exact h.void none t (mem_of_active ht active) active
  · dsimp only
    rw [due_retire h.single hs]
    split
    · exact (h.single c).sublist (List.filter_sublist.map _)
    · exact h.single c

theorem step_sound (h : d.Sound shape) (r : Request shape) : (d.step r).Sound shape := by
  cases r with
  | subscribe c tag => exact h.subscribe c tag
  | cancel i => exact h.cancel i
  | other op apart =>
    rcases h.other apart with ⟨made, listeners⟩ | idle
    · refine ⟨fun hl => ?_, fun hl => ?_, fun hl => ?_, ?_⟩
      · exact h.opened (listeners.symm.trans hl)
      · rw [made]
        exact h.below (listeners.symm.trans hl)
      · rw [made]
        exact h.void (listeners.symm.trans hl)
      · rw [made]
        exact h.single
    · exact idle.sound

theorem InStep.registers (h : d.InStep shape) (c : Crossing) (id : SubscriptionId) :
    (d.world.registered shape c).any (·.1 = id) = true ↔ Taken d.made c id := by
  rw [h, taken_iff]
  simp

theorem InStep.side (h : d.InStep shape) (id : SubscriptionId) :
    d.world.side shape id = .entered ∧ Taken d.made .entered id ∨
      d.world.side shape id = .left ∧ ¬ Taken d.made .entered id := by
  unfold World.side
  split
  · next hf => exact .inl ⟨rfl, (h.registers ..).mp hf⟩
  · next hf => exact .inr ⟨rfl, fun taken => hf ((h.registers ..).mpr taken)⟩

section Cancel
variable (sound : d.Sound shape) (h : d.InStep shape) {i : Nat} {s : Subscription}
  (hs : d.made[i]? = some s)
include sound h hs

theorem inStep_cancel_iff :
    InStep shape ⟨(d.world.unsubscribe shape s.id).2, d.made.modify i retire⟩ ↔
      ∀ c, (if c = d.world.side shape s.id then (due d.made c).filter (·.1 ≠ s.id)
        else due d.made c) = if s.active ∧ s.crossing = c then (due d.made c).filter (·.1 ≠ s.id)
        else due d.made c := by
  refine forall_congr' fun c => ?_
  dsimp only
  rw [unsubscribe_registered, h, due_retire sound.single hs]

theorem inStep_cancel_active (active : s.active) :
    InStep shape ⟨(d.world.unsubscribe shape s.id).2, d.made.modify i retire⟩ ↔
      ¬ Mistaken d.made i := by
  have own : Taken d.made s.crossing s.id := ⟨s, List.mem_of_getElem? hs, active, rfl, rfl⟩
  rw [inStep_cancel_iff sound h hs, mistaken_iff hs]
  rcases h.side s.id with ⟨side, taken⟩ | ⟨side, free⟩
  · cases hc : s.crossing with
    | entered => simp [side, active, eq_comm]
    | left =>
      refine iff_of_false (fun all => ?_) (fun right => right (by simp [active, taken]))
      have at_left := all .left
      rw [if_neg (by simp [side]), if_pos ⟨active, rfl⟩] at at_left
      exact filter_due.mp at_left.symm (hc ▸ own)
  · cases hc : s.crossing with
    | entered => exact absurd (hc ▸ own) free
    | left => simp [side, active, free, eq_comm]

theorem inStep_cancel_retired (retired : ¬ s.active) :
    InStep shape ⟨(d.world.unsubscribe shape s.id).2, d.made.modify i retire⟩ ↔
      ¬ Mistaken d.made i := by
  rw [inStep_cancel_iff sound h hs, mistaken_iff hs, if_neg retired]
  rcases h.side s.id with ⟨side, taken⟩ | ⟨side, free⟩
  · refine iff_of_false (fun all => ?_) (fun right => right ⟨_, taken⟩)
    have at_entered := all .entered
    rw [if_pos side.symm, if_neg (by simp [retired])] at at_entered
    exact filter_due.mp at_entered taken
  · constructor
    · rintro all ⟨c, taken⟩
      cases c with
      | entered => exact free taken
      | left =>
        have at_left := all .left
        rw [if_pos side.symm, if_neg (by simp [retired])] at at_left
        exact filter_due.mp at_left taken
    · intro nobody c
      rw [filter_due.mpr fun taken => nobody ⟨c, taken⟩, ite_self, ite_self]

theorem inStep_cancel : InStep shape ⟨(d.world.unsubscribe shape s.id).2, d.made.modify i retire⟩ ↔
    ¬ Mistaken d.made i := by
  by_cases active : s.active
  · exact inStep_cancel_active sound h hs active
  · exact inStep_cancel_retired sound h hs active

end Cancel

theorem inStep_step (sound : d.Sound shape) (h : d.InStep shape) (r : Request shape) :
    (d.step r).InStep shape ↔ ∀ i, r = .cancel i → ¬ Mistaken d.made i := by
  cases r with
  | subscribe c tag =>
    refine iff_of_true ?_ fun i h => by cases h
    rcases subscribe_cases d shape c tag with same | ⟨l, u, hl, opened, hd, after⟩
    · rw [same]
      exact h
    intro k
    rw [hd]
    dsimp only
    have before := h k
    rw [registered_of hl] at before
    rw [registered_of after, due_append, due_cons, ← before]
    split
    · next same => simp [Listeners.subscribe, opened, same, due]
    · next other => simp [Ne.symm other, due]
  | cancel i =>
    rcases cancel_cases d shape i with ⟨unmade, same⟩ | ⟨s, hs, hd⟩
    · rw [same]
      refine iff_of_true h fun j hj mistaken => ?_
      cases hj
      exact absurd (unmade.symm.trans mistaken.choose_spec.1) (Option.some_ne_none _).symm
    · rw [hd, inStep_cancel sound h hs]
      exact ⟨fun right j hj => by cases hj; exact right, fun right => right i rfl⟩
  | other op apart =>
    refine iff_of_true ?_ fun i h => by cases h
    rcases sound.other apart with ⟨made, listeners⟩ | idle
    · intro c
      unfold registered
      rw [made, listeners]
      exact h c
    · exact idle.inStep

theorem run_append (d : Desk) (requests requests' : List (Request shape)) :
    d.run (requests ++ requests') = (d.run requests).run requests' := List.foldl_append

theorem run_sound (h : d.Sound shape) (requests : List (Request shape)) :
    (d.run requests).Sound shape := by
  induction requests generalizing d with
  | nil => exact h
  | cons r requests ih => exact ih (step_sound h r)

theorem run_inStep (sound : d.Sound shape) (h : d.InStep shape) (requests : List (Request shape)) :
    (∀ earlier, earlier <+: requests → (d.run earlier).InStep shape) ↔
      ∀ earlier i, earlier ++ [.cancel i] <+: requests → ¬ Mistaken (d.run earlier).made i := by
  constructor
  · intro all earlier i front
    have before := all earlier ((List.prefix_append ..).trans front)
    have after := all _ front
    rw [run_append] at after
    exact (inStep_step (run_sound sound earlier) before (.cancel i)).mp after i rfl
  · intro right earlier
    induction earlier using List.reverseRecOn with
    | nil => exact fun _ => h
    | append_singleton earlier r ih =>
      intro front
      have before := ih ((List.prefix_append ..).trans front)
      rw [run_append]
      refine (inStep_step (run_sound sound earlier) before r).mpr fun i hr => ?_
      exact right earlier i (hr ▸ front)

/-- What comes of it when an active subscription is taken back. -/
structure Cancelled (shape : ElementId) (d : Desk) (i : Nat) (s : Subscription) : Prop where
  found : (d.world.unsubscribe shape s.id).1 = true
  -- that listener goes, and no other
  meant : ¬ Mistaken d.made i → ∀ c, (d.world.unsubscribe shape s.id).2.registered shape c =
    if c = s.crossing then (d.world.registered shape c).erase (s.id, s.tag)
    else d.world.registered shape c
  -- one who hears of elements entering goes in place of one who hears of elements leaving
  mistaken : Mistaken d.made i → s.crossing = .left ∧ ∃ t ∈ d.made, t.active ∧
    t.crossing = .entered ∧ t.id = s.id ∧
    ∀ c, (d.world.unsubscribe shape s.id).2.registered shape c =
      if c = .entered then (d.world.registered shape c).erase (t.id, t.tag)
      else d.world.registered shape c

theorem InStep.unsubscribe (h : d.InStep shape) (sound : d.Sound shape) {t : Subscription}
    (ht : t ∈ d.made) (active : t.active) (side : d.world.side shape t.id = t.crossing)
    (c : Crossing) : (d.world.unsubscribe shape t.id).2.registered shape c =
      if c = t.crossing then (d.world.registered shape c).erase (t.id, t.tag)
      else d.world.registered shape c := by
  rw [unsubscribe_registered, side, h c]
  split
  · next same => rw [same, filter_eq_erase sound.single ht active]
  · rfl

theorem InStep.cancelled (h : d.InStep shape) (sound : d.Sound shape) {i : Nat} {s : Subscription}
    (hs : d.made[i]? = some s) (active : s.active) : Cancelled shape d i s := by
  have made := List.mem_of_getElem? hs
  have own : Taken d.made s.crossing s.id := ⟨s, made, active, rfl, rfl⟩
  have mistaken := mistaken_iff hs
  rw [if_pos active] at mistaken
  rcases h.side s.id with ⟨side, taken⟩ | ⟨side, free⟩
  · refine ⟨?_, fun right => ?_, fun wrong => ?_⟩
    · rw [unsubscribe_found, side, h.registers]
      exact taken
    · refine h.unsubscribe sound made active (side.trans ?_)
      cases hc : s.crossing with
      | entered => rfl
      | left => exact absurd (mistaken.mpr ⟨hc, taken⟩) right
    · obtain ⟨leaving, t, ht, inUse, entering, same⟩ := mistaken.mp wrong
      have gone := h.unsubscribe sound ht inUse (same ▸ side.trans entering.symm)
      rw [entering, same] at gone
      exact ⟨leaving, t, ht, inUse, entering, same, fun c => same ▸ gone c⟩
  · have leaving : s.crossing = .left := by
      cases hc : s.crossing with
      | entered => exact absurd (hc ▸ own) free
      | left => rfl
    refine ⟨?_, fun _ => ?_, fun wrong => absurd (mistaken.mp wrong).2 free⟩
    · rw [unsubscribe_found, side, h.registers]
      exact leaving ▸ own
    · exact h.unsubscribe sound made active (side.trans leaving.symm)

end Desk

theorem audience_eq (z : Zone) (c : Crossing) :
    z.audience c = (z.listeners c).entries.map (·.2) := by
  cases c <;> rfl

/-- All who are registered for a crossing are told of it, and nobody else. -/
def Tells (shape element : ElementId) (c : Crossing) (w u : World) : Prop :=
  u.calls = w.calls ++ (w.registered shape c).map fun l => .crossed l.2 c shape element

theorem announce_tells {s e : ElementId} {z : Zone} (hz : w.zones.find? s = some z)
    (calls : u.calls = w.calls) (c : Crossing) : Tells s e c w (u.announce s e c z) := by
  have here : w.listeners? s = some z.listeners := by
    unfold listeners?
    rw [hz]
    rfl
  unfold Tells
  rw [announce_eq, registered_of here, calls, audience_eq, List.map_map]
  rfl

theorem check_tells {s e : ElementId} {c : Crossing} (h : (w.check s e).1 = .ok (some c)) :
    Tells s e c w (w.check s e).2 := by
  unfold check at h ⊢
  split
  · next hz =>
    rw [hz] at h
    cases h
  · next z hz =>
    rw [hz] at h
    dsimp only at h ⊢
    rcases checkZone_cases w s e z with ⟨done, _⟩ | ⟨l, _, _, _, _, done⟩ | ⟨sub, _, _, done⟩
    · rw [done] at h
      cases h
    · rw [done] at h ⊢
      cases h
      refine announce_tells hz ?_ .entered
      rfl
    · rw [done] at h ⊢
      cases h
      refine announce_tells hz ?_ .left
      exact unwatch_calls ..

theorem memberDestroyed_tells {s e : ElementId} (h : w.isMember s e) :
    Tells s e .left w (w.memberDestroyed s e) := by
  obtain ⟨z, sub, hz, hm⟩ := isMember_iff.mp h
  unfold memberDestroyed
  rw [hz]
  dsimp only
  rw [if_pos (by simp [Table.contains, hm])]
  refine announce_tells hz ?_ .left
  rfl

/-- Those with an active subscription are registered, and nobody else, as long as no number that is
taken back is mistaken for another, and no longer. Until then a subscription that is taken back goes,
and no other does; the first time that one is mistaken the other goes in its place. Whoever is
registered is told of each crossing. -/
theorem run_subscriptions (cellSize : Single) (ids : IdSource) (root shape : ElementId)
    (requests : List (Request shape)) :
    let start : Desk := { world := fresh cellSize ids root }
    ((∀ earlier, earlier <+: requests → (start.run earlier).InStep shape) ↔
      ∀ earlier i, earlier ++ [.cancel i] <+: requests → ¬ Mistaken (start.run earlier).made i) ∧
    ((start.run requests).InStep shape →
      (∀ i s, (start.run requests).made[i]? = some s → s.active →
        Desk.Cancelled shape (start.run requests) i s) ∧
      ∀ c, (start.run requests).world.registered shape c = due (start.run requests).made c) ∧
    ∀ element, (∀ c, ((start.run requests).world.check shape element).1 = .ok (some c) →
        Tells shape element c (start.run requests).world
          ((start.run requests).world.check shape element).2) ∧
      ((start.run requests).world.isMember shape element →
        Tells shape element .left (start.run requests).world
          ((start.run requests).world.memberDestroyed shape element)) := by
  intro start
  have idle : start.Idle shape := ⟨nofun, nofun⟩
  have sound := Desk.run_sound idle.sound requests
  refine ⟨Desk.run_inStep idle.sound idle.inStep requests, fun h => ⟨?_, h⟩, fun element => ?_⟩
  · exact fun i s hs active => h.cancelled sound hs active
  · exact ⟨fun c => check_tells, memberDestroyed_tells⟩

/-- The number of the one who hears of elements leaving is zero as well, and the other is taken off. -/
theorem leaver_stays_registered :
    let d := ({ world := fresh Grid.defaultCellSize (.counter 1) ⟨0⟩ } : Desk).run
      ([.other (.createShape (.sphere (.ofNat 10)) .zero) nofun, .subscribe .entered "in",
        .subscribe .left "out"] : List (Request ⟨1⟩))
    d.made = [⟨.entered, ⟨0⟩, "in", true⟩, ⟨.left, ⟨0⟩, "out", true⟩] ∧ d.InStep ⟨1⟩ ∧
      ∃ w, d.world.unsubscribe ⟨1⟩ ⟨0⟩ = (true, w) ∧
        w.registered ⟨1⟩ .entered = [] ∧ w.registered ⟨1⟩ .left = [(⟨0⟩, "out")] := by
  refine ⟨by decide, fun c => ?_, _, rfl, by decide, by decide⟩
  cases c <;> decide

end World
end SharedWorld
