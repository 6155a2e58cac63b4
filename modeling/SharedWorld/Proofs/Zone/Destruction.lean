import SharedWorld.Proofs.Zone.Watched

/-! The end of an element. Its watchers may check it once more and remove others, whose watchers do
the same; whatever they do, the element leaves every shape that it is in and enters none. -/
namespace SharedWorld

open Store

namespace World
variable {w u v : World} {id : ElementId}

/-- From `w` to `u` each shape and each element keep to a course, and whoever needs a watcher has one. -/
structure Orderly (w u : World) : Prop where
  course : ∀ shape element, ∃ cs, Course shape element cs w u
  watched : w.Watched → u.Watched

namespace Orderly

theorem refl (w : World) : Orderly w w := ⟨fun s e => ⟨[], .refl s e w⟩, fun h => h⟩

theorem trans (h : Orderly w u) (h' : Orderly u v) : Orderly w v where
  course s e := by
    obtain ⟨cs, first⟩ := h.course s e
    obtain ⟨ds, second⟩ := h'.course s e
    exact ⟨cs ++ ds, first.trans second⟩
  watched hw := h'.watched (h.watched hw)

theorem shut (h : Orderly w u) (id : ElementId) : u.Shut id ↔ w.Shut id := by
  obtain ⟨_, course⟩ := h.course id id
  exact course.shut

theorem untracked (h : Orderly w u) {shape : ElementId} (hw : ¬ w.tracks shape) :
    ¬ u.tracks shape := by
  obtain ⟨_, course⟩ := h.course shape shape
  have path := course.path
  rw [presence_eq_none.mpr hw] at path
  exact presence_eq_none.mp path.of_none.2

theorem outside (h : Orderly w u) {shape : ElementId} (shut : w.Shut id)
    (hw : ¬ w.isMember shape id) : ¬ u.isMember shape id := by
  obtain ⟨cs, course⟩ := h.course shape id
  obtain ⟨_, _, within, _⟩ := course.path.of_not_entered (course.outside shut)
  intro hu
  exact hw (presence_eq_true.mp (within (presence_eq_true.mpr hu)))

end Orderly

theorem check_orderly (w : World) (s e : ElementId) : Orderly w (w.check s e).2 :=
  ⟨fun _ _ => check_course w s e, fun h => check_watched h s e⟩

theorem checkAll_orderly (pairs : List (ElementId × ElementId)) (w : World) :
    Orderly w (w.checkAll pairs).2 := checkAll_lifts .refl .trans check_orderly pairs w

theorem runPass_orderly (w : World) : Orderly w w.runPass.2 :=
  pass_lifts .refl .trans check_orderly _ w

theorem memberDestroyed_orderly (w : World) (s e : ElementId) :
    Orderly w (w.memberDestroyed s e) :=
  ⟨fun _ _ => memberDestroyed_course w s e, fun h => memberDestroyed_watched h s e⟩

theorem forget_orderly (w : World) (s : ElementId) : Orderly w (w.forget s).2 :=
  ⟨fun _ _ => ⟨[], forget_course w s⟩, fun h => forget_watched h s⟩

theorem call_orderly {c : Call} (other : ∀ f g s e, c.crossing? f g s e = none) (w : World) :
    Orderly w (w.call c) := by
  refine ⟨fun s e => ⟨[], .silent rfl (fun f g => ?_) Iff.rfl (.inl rfl)⟩, fun h => h.congr rfl rfl⟩
  unfold heard call
  rw [List.filterMap_append, List.filterMap_cons, other]
  exact List.append_nil _

theorem noteCheck_orderly (w : World) (tag : String) (id : ElementId) (checked : Option ElementId) :
    Orderly w (w.noteCheck tag id checked) := by
  cases checked with
  | none => exact .refl w
  | some shape =>
    exact (check_orderly w shape id).trans (call_orderly (c := .checked ..) (fun _ _ _ _ => rfl) _)

def heed (remove : ElementId → World → Except WorldError Element × World) (id : ElementId) :
    Watcher → World → World
  | .member shape, w => w.memberDestroyed shape id
  | .shape, w => (w.forget id).2
  | .note tag checked removed, w =>
    ((w.call (.destroyed tag id (w.store.contains id))).noteCheck tag id checked).noteRemoval
      remove tag removed

section Notify
variable {remove : ElementId → World → Except WorldError Element × World}

theorem notify_cons (id : ElementId) (watcher : Watcher) (rest : List Watcher) (w : World) :
    notify remove id (watcher :: rest) w = notify remove id rest (heed remove id watcher w) := by
  cases watcher <;> rfl

theorem heed_orderly (hr : ∀ id w, Orderly w (remove id w).2) (id : ElementId) (watcher : Watcher)
    (w : World) : Orderly w (heed remove id watcher w) := by
  cases watcher with
  | member shape => exact memberDestroyed_orderly w shape id
  | shape => exact forget_orderly w id
  | note tag checked removed =>
    have noted : Orderly w (w.call (.destroyed tag id (w.store.contains id))) :=
      call_orderly (fun _ _ _ _ => rfl) w
    refine noted.trans ((noteCheck_orderly _ tag id checked).trans ?_)
    cases removed with
    | none => exact .refl _
    | some other =>
      exact (hr other _).trans (call_orderly (c := .removed ..) (fun _ _ _ _ => rfl) _)

theorem notify_orderly (hr : ∀ id w, Orderly w (remove id w).2) (id : ElementId)
    (watchers : List Watcher) (w : World) : Orderly w (notify remove id watchers w) := by
  induction watchers generalizing w with
  | nil => exact .refl w
  | cons watcher rest ih =>
    rw [notify_cons]
    exact (heed_orderly hr id watcher w).trans (ih _)

theorem notify_brings (hr : ∀ id w, Orderly w (remove id w).2) {P : World → Prop}
    {watcher : Watcher} {watchers : List Watcher} (hin : watcher ∈ watchers)
    (brings : ∀ w, P (heed remove id watcher w))
    (lasts : ∀ w u, Orderly w u → w.Shut id → P w → P u) (shut : w.Shut id) :
    P (notify remove id watchers w) := by
  induction watchers generalizing w with
  | nil => cases hin
  | cons first rest ih =>
    rw [notify_cons]
    have step := heed_orderly hr id first w
    have still := (step.shut id).mpr shut
    cases hin with
    | head => exact lasts _ _ (notify_orderly hr id rest _) still (brings w)
    | tail _ hin => exact ih hin still

theorem notify_left (hr : ∀ id w, Orderly w (remove id w).2) {shape : ElementId}
    {watchers : List Watcher} (hin : .member shape ∈ watchers) (shut : w.Shut id) :
    ¬ (notify remove id watchers w).isMember shape id := by
  exact notify_brings hr hin (fun w => memberDestroyed_not_isMember w shape id)
    (fun _ _ h shut hw => h.outside shut hw) shut

theorem notify_forgot (hr : ∀ id w, Orderly w (remove id w).2) {watchers : List Watcher}
    (hin : .shape ∈ watchers) (shut : w.Shut id) : ¬ (notify remove id watchers w).tracks id := by
  refine notify_brings hr (P := fun w => ¬ w.tracks id) hin (fun w => ?_)
    (fun _ _ h _ hw => h.untracked hw) shut
  simp [heed, tracks, Table.contains, forget_zones]

end Notify

/-- The element takes no more watchers, and those it had are about to be told. -/
def closing (w : World) (id : ElementId) (l : Listeners Watcher) : World :=
  w.withWatchers id l.close.2

theorem closing_shut {l : Listeners Watcher} (hl : w.store.watchers? id = some l) (a : ElementId) :
    (w.closing id l).Shut a ↔ a = id ∨ w.Shut a := by
  have closed : l.close.2.closed = true := by
    unfold Listeners.close
    split
    · assumption
    · rfl
  unfold Shut closing
  rw [withWatchers_watchers?]
  split
  · next ha =>
    subst ha
    simp [hl, closed]
  · next ha => simp [ha]

theorem Watched.closing (h : w.Watched) {l : Listeners Watcher}
    (hl : w.store.watchers? id = some l) : (w.closing id l).Watched := by
  refine h.withWatchers hl (h.numbered hl).close ?_
  intro sub watcher _ held opened
  unfold Listeners.close at opened ⊢
  split
  · next closed => simp [closed] at opened
  · next closed => simp [closed] at opened

theorem Watched.evict (h : w.Watched) {gone : Element} {t : Store}
    (hev : w.store.evict id = some (gone, t)) (left : ∀ shape, ¬ w.isMember shape id)
    (untracked : ¬ w.tracks id) : ({ w with store := t } : World).Watched := by
  have kept {a : ElementId} {entry : SubscriptionId × Watcher} (ha : a ≠ id)
      (held : w.Holds a entry) : ({ w with store := t } : World).Holds a entry := by
    unfold Holds at *
    dsimp only
    rwa [watchers?_evict hev, if_neg ha]
  refine ⟨fun hl => ?_, fun {shape z element sub} hz hm => ?_, fun {shape} hs => ?_⟩
  · rw [watchers?_evict hev] at hl
    split at hl
    · cases hl
    · exact h.numbered hl
  · refine kept (fun he => ?_) (h.member hz hm)
    subst he
    dsimp only at hz
    exact left shape (by simp [isMember, hz, Table.contains, hm])
  · obtain ⟨sub, held⟩ := h.zone hs
    refine ⟨sub, kept (fun he => ?_) held⟩
    subst he
    exact untracked hs

/-- From `w` to `u` the element came to its end, and left every shape. -/
structure Ended (id : ElementId) (w u : World) : Prop where
  orderly : Orderly w u
  exits : ∀ shape, ∃ cs, Course shape id cs w u ∧ .entered ∉ cs
  outside : w.Watched → ∀ shape, ¬ u.isMember shape id

section Told
variable {remove : ElementId → World → Except WorldError Element × World} {l : Listeners Watcher}
  (hr : ∀ id w, Orderly w (remove id w).2) (hl : w.store.watchers? id = some l)
include hr hl

theorem told_left {shape : ElementId} (among : w.isMember shape id → .member shape ∈ l.audience) :
    ¬ (notify remove id l.audience (w.closing id l)).isMember shape id := by
  have shut : (w.closing id l).Shut id := (closing_shut hl id).mpr (.inl rfl)
  by_cases member : w.isMember shape id
  · exact notify_left hr (among member) shut
  · exact (notify_orderly hr id l.audience _).outside shut member

theorem told_evicts : ∃ gone t,
    (notify remove id l.audience (w.closing id l)).store.evict id = some (gone, t) := by
  have shut : (w.closing id l).Shut id := (closing_shut hl id).mpr (.inl rfl)
  exact evict_of_contains (((notify_orderly hr id l.audience _).shut id).mpr shut).contains

variable (opened : l.closed = false)
include opened

theorem told_outside (hw : w.Watched) (shape : ElementId) :
    ¬ (notify remove id l.audience (w.closing id l)).isMember shape id :=
  told_left hr hl fun member => hw.member_audience member hl opened

theorem told_untracked (hw : w.Watched) :
    ¬ (notify remove id l.audience (w.closing id l)).tracks id := by
  have shut : (w.closing id l).Shut id := (closing_shut hl id).mpr (.inl rfl)
  by_cases tracked : w.tracks id
  · exact notify_forgot hr (hw.zone_audience tracked hl opened) shut
  · exact (notify_orderly hr id l.audience _).untracked tracked

theorem told_course {told : World} (ht : told = notify remove id l.audience (w.closing id l))
    {gone : Element} {t : Store} (hev : told.store.evict id = some (gone, t))
    (shape element : ElementId) : ∃ cs, Course shape element cs w { told with store := t } ∧
      (element = id → .entered ∉ cs) := by
  have begun := closing_shut hl
  have heard : Orderly (w.closing id l) told := ht ▸ notify_orderly hr id l.audience _
  obtain ⟨cs, h⟩ := heard.course shape element
  refine ⟨cs, h.congr rfl rfl rfl rfl rfl rfl ?_ fun hs => (begun element).mpr (.inr hs),
    fun he => h.outside ((begun element).mpr (.inl he))⟩
  -- Before and after, the element that goes is not shut: its registry goes with it.
  by_cases he : element = id
  · have gone : ¬ ({ told with store := t } : World).Shut element := by
      simp [Shut, watchers?_evict hev, he]
    exact iff_of_false gone (he ▸ not_shut hl opened)
  · have same : ({ told with store := t } : World).Shut element ↔ told.Shut element := by
      simp [Shut, watchers?_evict hev, he]
    exact same.trans (h.shut.trans ((begun element).trans (or_iff_right he)))

theorem told_ended {told : World} (ht : told = notify remove id l.audience (w.closing id l))
    {gone : Element} {t : Store} (hev : told.store.evict id = some (gone, t)) :
    Ended id w { told with store := t } := by
  have course := told_course hr hl opened ht hev
  have heard : Orderly (w.closing id l) told := ht ▸ notify_orderly hr id l.audience _
  have outside (hw : w.Watched) : ∀ shape, ¬ told.isMember shape id :=
    ht ▸ told_outside hr hl opened hw
  have untracked (hw : w.Watched) : ¬ told.tracks id := ht ▸ told_untracked hr hl opened hw
  refine ⟨⟨fun s e => (course s e).imp fun _ h => h.1, fun hw => ?_⟩,
    fun s => (course s id).imp fun _ h => ⟨h.1, h.2 rfl⟩, outside⟩
  exact (heard.watched (hw.closing hl)).evict hev (outside hw) (untracked hw)

end Told

/-- All that a removal can come to: it is refused, or the watchers are told before the element goes. -/
theorem removeWithin_told (depth : Nat) (id : ElementId) (w : World) :
    (∃ err, removeWithin depth id w = (.error err, w) ∧
      (depth = 0 ∨ id = w.store.root ∨ ¬ w.store.contains id ∨ w.Shut id)) ∨
    ∃ n l told, depth = n + 1 ∧ w.store.watchers? id = some l ∧ l.closed = false ∧
      told = notify (removeWithin n) id l.audience (w.closing id l) ∧
      removeWithin depth id w = match told.store.evict id with
        | none => (.error (.notFound id), told)
        | some (e, store) => (.ok e, { told with store }) := by
  cases depth with
  | zero => exact .inl ⟨_, rfl, .inl rfl⟩
  | succ n =>
    rw [removeWithin]
    split
    · next root => exact .inl ⟨_, rfl, .inr (.inl root)⟩
    split
    · next absent =>
      refine .inl ⟨_, rfl, .inr (.inr (.inl ?_))⟩
      simp [Store.contains, Table.contains, absent]
    next r found =>
    have hl : w.store.watchers? id = some r.destroyed := by simp [watchers?, found]
    cases opened : r.destroyed.closed with
    | true =>
      refine .inl ⟨.notFound id, by simp [Listeners.close, opened], .inr (.inr (.inr ?_))⟩
      exact ⟨_, hl, opened⟩
    | false =>
      have hc : r.destroyed.close = (some r.destroyed.audience, r.destroyed.close.2) := by
        simp [Listeners.close, opened]
      rw [hc]
      exact .inr ⟨n, r.destroyed, _, rfl, hl, opened, rfl, rfl⟩

/-- Whoever removes an element that is there, and not on its way out already, succeeds. -/
theorem removeWithin_ended (depth : Nat) (id : ElementId) (w : World) :
    (∃ err, removeWithin depth id w = (.error err, w) ∧
      (depth = 0 ∨ id = w.store.root ∨ ¬ w.store.contains id ∨ w.Shut id)) ∨
    (∃ gone, (removeWithin depth id w).1 = .ok gone) ∧ Ended id w (removeWithin depth id w).2 := by
  induction depth generalizing id w with
  | zero => exact .inl ⟨_, rfl, .inl rfl⟩
  | succ depth ih =>
    -- What watchers remove, they remove at the depth below.
    have hr (id : ElementId) (w : World) : Orderly w (removeWithin depth id w).2 := by
      rcases ih id w with ⟨err, h, _⟩ | ⟨_, h⟩
      · rw [h]
        exact .refl w
      · exact h.orderly
    rcases removeWithin_told (depth + 1) id w with refused | ⟨n, l, told, hn, hl, opened, ht, h⟩
    · exact .inl refused
    · cases hn
      obtain ⟨gone, t, hev⟩ := told_evicts hr hl
      rw [← ht] at hev
      rw [h, hev]
      exact .inr ⟨⟨gone, rfl⟩, told_ended hr hl opened ht hev⟩

theorem removeWithin_orderly (depth : Nat) (id : ElementId) (w : World) :
    Orderly w (removeWithin depth id w).2 := by
  rcases removeWithin_ended depth id w with ⟨err, h, _⟩ | ⟨_, h⟩
  · rw [h]
    exact .refl w
  · exact h.orderly

end World
end SharedWorld
