import SharedWorld.Proofs.Zone.Course

/-! The courses that checks, passes, and the ends of shapes and elements take. -/
namespace SharedWorld

open Store

def Zone.audience (z : Zone) : Crossing → List String
  | .entered => z.entered.audience
  | .left => z.left.audience

def Crossing.event (shape element : ElementId) : Crossing → WorldEvent
  | .entered => .shapeEntered shape element
  | .left => .shapeLeft shape element

namespace World
variable {w u : World} {shape element : ElementId}

section Watching
variable {id : ElementId} {l new : Listeners Watcher}

def withWatchers (w : World) (id : ElementId) (l : Listeners Watcher) : World :=
  { w with store := w.store.modifyWatchers id fun _ => l }

theorem withWatchers_watchers? (w : World) (id a : ElementId) (l : Listeners Watcher) :
    (w.withWatchers id l).store.watchers? a =
      if a = id then (w.store.watchers? a).map fun _ => l else w.store.watchers? a :=
  watchers?_modifyWatchers ..

theorem withWatchers_self (hl : w.store.watchers? id = some l) :
    (w.withWatchers id new).store.watchers? id = some new := by
  rw [withWatchers_watchers?, if_pos rfl, hl]
  rfl

theorem withWatchers_shut (hl : w.store.watchers? id = some l) (closed : new.closed = l.closed)
    (a : ElementId) : (w.withWatchers id new).Shut a ↔ w.Shut a := by
  unfold Shut
  rw [withWatchers_watchers?]
  split
  · next h =>
    subst h
    simp [hl, closed]
  · exact Iff.rfl

theorem not_shut (hl : w.store.watchers? id = some l) (opened : l.closed = false) :
    ¬ w.Shut id := by
  intro h
  obtain ⟨l', hl', closed⟩ := h
  cases hl.symm.trans hl'
  cases opened.symm.trans closed

theorem subscribe_closed {κ : Type} (l : Listeners κ) (listener : κ) :
    (l.subscribe listener).2.closed = l.closed := by
  unfold Listeners.subscribe
  split <;> rfl

theorem unsubscribe_closed {κ : Type} (l : Listeners κ) (sub : SubscriptionId) :
    (l.unsubscribe sub).2.closed = l.closed := rfl

theorem watch_cases (w : World) (id : ElementId) (watcher : Watcher) :
    (∃ err, w.watch id watcher = (.error err, w) ∧
      ∀ l, w.store.watchers? id = some l → l.closed = true) ∨
    ∃ l, w.store.watchers? id = some l ∧ l.closed = false ∧
      w.watch id watcher = (.ok ⟨l.next⟩, w.withWatchers id (l.subscribe watcher).2) := by
  unfold watch watchers?
  cases w.store.residents.find? id with
  | none => exact .inl ⟨_, rfl, nofun⟩
  | some r =>
    cases hc : r.destroyed.closed with
    | true =>
      refine .inl ⟨.notFound id, ?_, fun l hl => ?_⟩
      · simp [Listeners.subscribe, hc]
      · cases hl
        exact hc
    | false =>
      refine .inr ⟨r.destroyed, rfl, hc, ?_⟩
      simp [Listeners.subscribe, hc, withWatchers]

theorem unwatch_cases (w : World) (id : ElementId) (sub : SubscriptionId) :
    (w.unwatch id sub).2 = w ∨ ∃ l, w.store.watchers? id = some l ∧
      (w.unwatch id sub).2 = w.withWatchers id (l.unsubscribe sub).2 := by
  unfold unwatch watchers?
  cases w.store.residents.find? id with
  | none => exact .inl rfl
  | some r => exact .inr ⟨r.destroyed, rfl, rfl⟩

theorem unwatch_zones (w : World) (id : ElementId) (sub : SubscriptionId) :
    (w.unwatch id sub).2.zones = w.zones := by
  unfold unwatch
  split <;> rfl

theorem unwatch_events (w : World) (id : ElementId) (sub : SubscriptionId) :
    (w.unwatch id sub).2.events = w.events := by
  unfold unwatch
  split <;> rfl

theorem unwatch_calls (w : World) (id : ElementId) (sub : SubscriptionId) :
    (w.unwatch id sub).2.calls = w.calls := by
  unfold unwatch
  split <;> rfl

theorem unwatch_shut (w : World) (id : ElementId) (sub : SubscriptionId) (a : ElementId) :
    (w.unwatch id sub).2.Shut a ↔ w.Shut a := by
  rcases unwatch_cases w id sub with h | ⟨l, hl, h⟩
  · rw [h]
  · rw [h]
    exact withWatchers_shut hl (unsubscribe_closed l sub) a

theorem unwatch_course (w : World) (id : ElementId) (sub : SubscriptionId) :
    Course shape element [] w (w.unwatch id sub).2 := by
  refine .silent ?_ (fun f g => ?_) (unwatch_shut w id sub element) (.inl ?_)
  · unfold crossings
    rw [unwatch_events]
  · unfold heard
    rw [unwatch_calls]
  · rw [unwatch_zones]

end Watching

theorem announce_eq (w : World) (s e : ElementId) (c : Crossing) (z : Zone) :
    w.announce s e c z = { w with
      calls := w.calls ++ (z.audience c).map fun tag => .crossed tag c s e
      events := w.events ++ [c.event s e] } := by
  have calls (tags : List String) (w : World) :
      tags.foldl (fun w tag => w.call (.crossed tag c s e)) w =
        { w with calls := w.calls ++ tags.map fun tag => .crossed tag c s e } := by
    induction tags generalizing w with
    | nil => simp
    | cons tag tags ih =>
      rw [List.foldl_cons, ih]
      simp [call]
  unfold announce
  cases c with
  | entered => simp only [calls, publish, Zone.audience, Crossing.event]
  | left => simp only [calls, publish, Zone.audience, Crossing.event]

theorem crossing?_event (s e : ElementId) (c : Crossing) :
    (c.event s e).crossing? shape element = if s = shape ∧ e = element then some c else none := by
  cases c <;> rfl

theorem heard_crossed (tags : List String) (f g : String) (s e : ElementId) (c : Crossing) :
    (tags.map fun tag => Call.crossed tag c s e).filterMap (·.crossing? f g shape element) =
      if s = shape ∧ e = element then
        List.replicate (tags.count (match c with | .entered => f | .left => g)) c
      else [] := by
  induction tags with
  | nil => simp
  | cons tag tags ih =>
    rw [List.map_cons, List.filterMap_cons, ih]
    by_cases same : s = shape ∧ e = element
    · cases c with
      | entered => by_cases ht : tag = f <;> simp [Call.crossing?, same, ht, List.replicate_succ]
      | left => by_cases ht : tag = g <;> simp [Call.crossing?, same, ht, List.replicate_succ]
    · cases c <;> simp only [Call.crossing?, same, ← and_assoc, false_and, if_false]

/-- An element changes sides and that is announced; nothing else happens to the members of any shape. -/
theorem Course.crossing {s e : ElementId} {z : Zone} {c : Crossing}
    (move : Table ElementId SubscriptionId → Table ElementId SubscriptionId)
    (hz : w.zones.find? s = some z)
    (zones : u.zones = w.zones.modify s fun z => { z with members := move z.members })
    (others : ∀ x, x ≠ e → (move z.members).contains x = z.members.contains x)
    (before : z.members.contains e = (c == .left))
    (after : (move z.members).contains e = (c == .entered))
    (events : u.events = w.events) (calls : u.calls = w.calls) (shut : ∀ id, u.Shut id ↔ w.Shut id)
    (free : c = .entered → ¬ w.Shut e) :
    Course shape element (if s = shape ∧ e = element then [c] else []) w (u.announce s e c z) := by
  have moved : u.zones.find? s = some { z with members := move z.members } := by
    rw [zones, Table.find?_modify_eq, if_pos rfl, hz]
    rfl
  have apart (hs : s ≠ shape) : u.zones.find? shape = w.zones.find? shape := by
    rw [zones, Table.find?_modify_eq, if_neg (Ne.symm hs)]
  rw [announce_eq]
  refine ⟨?_, ?_, fun f g hl => ⟨fun z' hz' => ?_, ?_⟩, shut element, fun hs => ?_⟩
  · unfold presence
    dsimp only
    by_cases hs : s = shape
    · subst hs
      rw [moved, hz]
      by_cases he : e = element
      · subst he
        rw [if_pos ⟨rfl, rfl⟩, Option.map_some, Option.map_some, before, after]
        cases c with
        | entered => exact .enter (.stay _)
        | left => exact .leave (.stay _)
      · rw [if_neg fun h => he h.2, Option.map_some, Option.map_some, others _ (Ne.symm he)]
        exact .stay _
    · rw [if_neg fun h => hs h.1, apart hs]
      exact .stay _
  · unfold World.crossings
    rw [events, List.filterMap_append]
    congr 1
    rw [List.filterMap_cons, crossing?_event]
    by_cases same : s = shape ∧ e = element <;> simp [same]
  · by_cases hs : s = shape
    · subst hs
      cases moved.symm.trans hz'
      exact hl z hz
    · exact hl z' ((apart hs).symm.trans hz')
  · unfold World.heard
    rw [calls, List.filterMap_append, heard_crossed]
    congr 1
    by_cases same : s = shape ∧ e = element
    · have counts := hl z (same.1 ▸ hz)
      cases c with
      | entered => simp [same, Zone.audience, counts.1]
      | left => simp [same, Zone.audience, counts.2]
    · rw [if_neg same, if_neg same]
  · split
    · next same =>
      intro hin
      rw [List.mem_singleton] at hin
      exact free hin.symm (same.2 ▸ hs)
    · exact List.not_mem_nil

theorem isInside_iff : w.isInside shape element ↔ ∃ e s geometry, w.store.find? element = some e ∧
    w.store.find? shape = some s ∧ s.shape? = some geometry ∧
      geometry.contains s.position e.position := by
  unfold isInside
  cases w.store.find? element with
  | none => simp
  | some e => cases w.store.find? shape <;> simp [Option.any_eq_true]

theorem isInside_contains (inside : w.isInside shape element) : w.store.contains element := by
  obtain ⟨e, _, _, he, _⟩ := isInside_iff.mp inside
  exact contains_iff.mpr ⟨e, he⟩

/-- All that a check can come to. -/
theorem checkZone_cases (w : World) (s e : ElementId) (z : Zone) :
    (w.checkZone s e z = (none, w) ∧ (z.enabled → e ≠ s → ¬ w.Shut e →
      w.isInside s e = true → z.members.contains e = true) ∧
      (z.enabled → e ≠ s → z.members.contains e = true → w.isInside s e = true)) ∨
    (∃ l, w.isInside s e = true ∧ z.members.find? e = none ∧ w.store.watchers? e = some l ∧
      l.closed = false ∧ w.checkZone s e z = (some .entered,
        ((w.withWatchers e (l.subscribe (.member s)).2).modifyZone s fun z =>
          { z with members := z.members.insert e ⟨l.next⟩ }).announce s e .entered z)) ∨
    ∃ sub, w.isInside s e = false ∧ z.members.find? e = some sub ∧
      w.checkZone s e z = (some .left, ((w.modifyZone s fun z =>
        { z with members := z.members.erase e }).unwatch e sub).2.announce s e .left z) := by
  unfold checkZone
  split
  · next idle =>
    refine .inl ⟨rfl, fun on ne => ?_, fun on ne => ?_⟩
    · exact absurd idle (by simp [on, ne])
    · exact absurd idle (by simp [on, ne])
  · cases inside : w.isInside s e with
    | true =>
      cases member : z.members.find? e with
      | none =>
        rcases watch_cases w e (.member s) with ⟨err, hw, shut⟩ | ⟨l, hl, opened, hw⟩
        · refine .inl ⟨by simp [hw], fun _ _ free _ => ?_, fun _ _ _ => rfl⟩
          obtain ⟨l, hl⟩ := contains_iff_watchers?.mp (isInside_contains inside)
          exact absurd ⟨l, hl, shut l hl⟩ free
        · exact .inr (.inl ⟨l, rfl, rfl, hl, opened, by simp only [hw]⟩)
      | some sub => exact .inl ⟨rfl, fun _ _ _ _ => by simp [Table.contains, member], fun _ _ _ => rfl⟩
    | false =>
      cases member : z.members.find? e with
      | none => exact .inl ⟨rfl, by simp, fun _ _ h => by simp [Table.contains, member] at h⟩
      | some sub => exact .inr (.inr ⟨sub, rfl, rfl, rfl⟩)

/-- A check leaves alone what has nothing to do with announcements and watchers, nor with whether the
one element is a member of the one shape. -/
theorem check_keeps {α : Type} (f : World → α) {s e : ElementId}
    (announced : ∀ w c z, f (w.announce s e c z) = f w)
    (watched : ∀ w l, f (w.withWatchers e l) = f w)
    (moved : ∀ w (move : Table ElementId SubscriptionId → Table ElementId SubscriptionId),
      (∀ m x, x ≠ e → (move m).contains x = m.contains x) →
        f (w.modifyZone s fun z => { z with members := move z.members }) = f w) (w : World) :
    f (w.check s e).2 = f w := by
  unfold check
  split
  · rfl
  next z _ =>
  rcases checkZone_cases w s e z with ⟨h, _⟩ | ⟨l, _, _, _, _, h⟩ | ⟨sub, _, _, h⟩
  · rw [h]
  · rw [h, announced, moved _ (·.insert e ⟨l.next⟩), watched]
    intro m x hx
    simp only [Table.contains, Table.find?_insert, if_neg hx]
  · have erased : f (w.modifyZone s fun z => { z with members := z.members.erase e }) = f w := by
      refine moved w (·.erase e) fun m x hx => ?_
      simp only [Table.contains, Table.find?_erase, if_neg hx]
    rw [h, announced, ← erased]
    rcases unwatch_cases (w.modifyZone s _) e sub with same | ⟨l, _, less⟩
    · rw [same]
    · rw [less, watched]

/-- The part of a pass that sees to one shape. -/
def sweep (w : World) (shape : ElementId) : Nat × World :=
  match w.zones.find? shape with
  | some z =>
    if z.enabled then w.checkAll ((w.candidates shape z).map fun id => (shape, id)) else (0, w)
  | none => (0, w)

theorem pass_cons (shape : ElementId) (shapes : List ElementId) (w : World) :
    runPass.pass (shape :: shapes) w =
      ((w.sweep shape).1 + (runPass.pass shapes (w.sweep shape).2).1,
        (runPass.pass shapes (w.sweep shape).2).2) := rfl

theorem sweep_cases (w : World) (shape : ElementId) :
    (w.sweep shape = (0, w) ∧ ¬ w.isActive shape) ∨
    ∃ z, w.zones.find? shape = some z ∧
      w.sweep shape = w.checkAll ((w.candidates shape z).map fun id => (shape, id)) := by
  unfold sweep isActive
  cases w.zones.find? shape with
  | none => simp
  | some z => cases on : z.enabled <;> simp [on]

-- What every check does, a pass does.
section Lifting
variable {R : World → World → Prop} (refl : ∀ w, R w w) (trans : ∀ {w u v}, R w u → R u v → R w v)
  (check : ∀ w s e, R w (w.check s e).2)
include refl trans check

theorem checkAll_lifts (pairs : List (ElementId × ElementId)) (w : World) :
    R w (w.checkAll pairs).2 := by
  induction pairs generalizing w with
  | nil => exact refl w
  | cons pair pairs ih => exact trans (check w pair.1 pair.2) (ih _)

theorem sweep_lifts (w : World) (shape : ElementId) : R w (w.sweep shape).2 := by
  rcases sweep_cases w shape with ⟨h, _⟩ | ⟨z, _, h⟩
  · rw [h]
    exact refl w
  · rw [h]
    exact checkAll_lifts refl trans check _ w

theorem pass_lifts (shapes : List ElementId) (w : World) : R w (runPass.pass shapes w).2 := by
  induction shapes generalizing w with
  | nil => exact refl w
  | cons shape shapes ih => exact trans (sweep_lifts refl trans check w shape) (ih _)

end Lifting

theorem checkZone_course {s e : ElementId} {z : Zone} (hz : w.zones.find? s = some z) :
    ∃ cs, Course shape element cs w (w.checkZone s e z).2 := by
  rcases checkZone_cases w s e z with ⟨h, _⟩ | ⟨l, _, hm, hl, opened, h⟩ | ⟨sub, _, hm, h⟩
  · rw [h]
    exact ⟨[], .refl shape element w⟩
  · rw [h]
    refine ⟨_, Course.crossing (·.insert e ⟨l.next⟩) hz rfl ?_ ?_ ?_ rfl rfl ?_ ?_⟩
    · intro x hx
      simp only [Table.contains, Table.find?_insert, if_neg hx]
    · simp [Table.contains, hm]
    · simp [Table.contains]
    · exact withWatchers_shut hl (subscribe_closed l _)
    · intro _ shut
      exact not_shut hl opened shut
  · rw [h]
    refine ⟨_, Course.crossing (·.erase e) hz (unwatch_zones ..) ?_ ?_ ?_ (unwatch_events ..)
      (unwatch_calls ..) (unwatch_shut _ e sub) (by simp)⟩
    · intro x hx
      simp only [Table.contains, Table.find?_erase, if_neg hx]
    · simp [Table.contains, hm]
    · simp [Table.contains]

theorem check_course (w : World) (s e : ElementId) :
    ∃ cs, Course shape element cs w (w.check s e).2 := by
  unfold check
  split
  · exact ⟨[], .refl shape element w⟩
  · next z hz => exact checkZone_course hz

theorem memberDestroyed_course (w : World) (s e : ElementId) :
    ∃ cs, Course shape element cs w (w.memberDestroyed s e) := by
  unfold memberDestroyed
  split
  · exact ⟨[], .refl shape element w⟩
  · next z hz =>
    split
    · next member =>
      refine ⟨_, Course.crossing (·.erase e) hz rfl ?_ ?_ ?_ rfl rfl (fun _ => Iff.rfl) nofun⟩
      · intro x hx
        simp only [Table.contains, Table.find?_erase, if_neg hx]
      · exact member
      · simp [Table.contains]
    · exact ⟨[], .refl shape element w⟩

theorem memberDestroyed_not_isMember (w : World) (s e : ElementId) :
    ¬ (w.memberDestroyed s e).isMember s e := by
  unfold memberDestroyed
  split
  · next hz => simp [isMember, hz]
  · next z hz =>
    split
    · rw [announce_eq]
      simp [isMember, modifyZone, Table.find?_modify_eq, hz, Table.contains]
    · next outside => simpa [isMember, hz] using outside

theorem forget_zones (w : World) (s a : ElementId) :
    (w.forget s).2.zones.find? a = if a = s then none else w.zones.find? a := by
  unfold forget
  split
  · next hz =>
    split
    · next ha =>
      rw [ha]
      exact hz
    · rfl
  · next z hz =>
    have kept (members : List (ElementId × SubscriptionId)) (w : World) :
        (members.foldl (fun w x => (w.unwatch x.1 x.2).2) w).zones = w.zones := by
      induction members generalizing w with
      | nil => rfl
      | cons m members ih => exact (ih _).trans (unwatch_zones w m.1 m.2)
    dsimp only
    rw [kept]
    exact Table.find?_erase w.zones a s

theorem forget_course (w : World) (s : ElementId) :
    Course shape element [] w (w.forget s).2 := by
  unfold forget
  split
  · exact .refl shape element w
  · next z hz =>
    have leaving (members : List (ElementId × SubscriptionId)) (u : World)
        (h : Course shape element [] w u) :
        Course shape element [] w (members.foldl (fun u x => (u.unwatch x.1 x.2).2) u) := by
      induction members generalizing u with
      | nil => exact h
      | cons m members ih => exact ih _ (h.trans (unwatch_course u m.1 m.2))
    refine leaving z.members.entries _ (.silent rfl (fun _ _ => rfl) Iff.rfl ?_)
    dsimp only
    rw [Table.find?_erase]
    split
    · exact .inr rfl
    · exact .inl rfl

end World
end SharedWorld
