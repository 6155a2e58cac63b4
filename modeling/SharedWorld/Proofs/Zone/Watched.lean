import SharedWorld.Proofs.Zone.Steps

/-! On whose account elements are watched. For each member of a shape there is a watcher at the member,
and for each shape that is kept track of there is one at the shape, until they are called. -/
namespace SharedWorld

/-- Listeners are told apart by their numbers, and the next number is new. -/
structure Listeners.Numbered {κ : Type} (l : Listeners κ) : Prop where
  below : ∀ x ∈ l.entries, x.1.number < l.next
  unique : ∀ x ∈ l.entries, ∀ y ∈ l.entries, x.1 = y.1 → x = y

namespace Listeners.Numbered
variable {κ : Type} {l : Listeners κ}

theorem empty : Numbered ({} : Listeners κ) := ⟨nofun, nofun⟩

theorem close (h : l.Numbered) : l.close.2.Numbered := by
  unfold Listeners.close
  split
  · exact h
  · exact ⟨nofun, nofun⟩

theorem subscribe (h : l.Numbered) (listener : κ) : (l.subscribe listener).2.Numbered := by
  unfold Listeners.subscribe
  split
  · exact h
  · have fresh (x : SubscriptionId × κ) (hx : x ∈ l.entries) : x.1 ≠ ⟨l.next⟩ := by
      intro same
      have below := h.below x hx
      rw [same] at below
      exact Nat.lt_irrefl _ below
    refine ⟨fun x hx => ?_, fun x hx y hy same => ?_⟩
    · rcases List.mem_append.mp hx with hx | hx
      · exact Nat.lt_succ_of_lt (h.below x hx)
      · cases List.mem_singleton.mp hx
        exact Nat.lt_succ_self _
    · rcases List.mem_append.mp hx with hx | hx <;> rcases List.mem_append.mp hy with hy | hy
      · exact h.unique x hx y hy same
      · cases List.mem_singleton.mp hy
        exact absurd same (fresh x hx)
      · cases List.mem_singleton.mp hx
        exact absurd same.symm (fresh y hy)
      · exact (List.mem_singleton.mp hx).trans (List.mem_singleton.mp hy).symm

theorem unsubscribe (h : l.Numbered) (sub : SubscriptionId) : (l.unsubscribe sub).2.Numbered where
  below x hx := h.below x (List.mem_filter.mp hx).1
  unique x hx y hy := h.unique x (List.mem_filter.mp hx).1 y (List.mem_filter.mp hy).1

end Listeners.Numbered

open Store

namespace World
variable {w u : World} {id a : ElementId} {l new : Listeners Watcher}
  {entry : SubscriptionId × Watcher}

/-- The element is there and has the watcher, unless its watchers have been called. -/
def Holds (w : World) (id : ElementId) (entry : SubscriptionId × Watcher) : Prop :=
  ∃ l, w.store.watchers? id = some l ∧ (l.closed = false → entry ∈ l.entries)

structure Watched (w : World) : Prop where
  numbered : ∀ {id l}, w.store.watchers? id = some l → l.Numbered
  member : ∀ {shape z element sub}, w.zones.find? shape = some z →
    z.members.find? element = some sub → w.Holds element (sub, .member shape)
  zone : ∀ {shape}, w.tracks shape → ∃ sub, w.Holds shape (sub, .shape)

/-- Nobody relies on the subscription any longer. -/
def Spent (w : World) (id : ElementId) (sub : SubscriptionId) : Watcher → Prop
  | .member shape => ∀ z, w.zones.find? shape = some z → z.members.find? id ≠ some sub
  | .shape => ¬ w.tracks id
  | .note _ _ _ => True

theorem Holds.withWatchers (h : w.Holds a entry) (hl : w.store.watchers? id = some l)
    (kept : a = id → (l.closed = false → entry ∈ l.entries) → new.closed = false →
      entry ∈ new.entries) : (w.withWatchers id new).Holds a entry := by
  obtain ⟨l', hl', held⟩ := h
  by_cases ha : a = id
  · subst ha
    cases hl.symm.trans hl'
    exact ⟨new, withWatchers_self hl, kept rfl held⟩
  · refine ⟨l', ?_, held⟩
    rwa [withWatchers_watchers?, if_neg ha]

theorem subscribe_holds (hl : w.store.watchers? id = some l) (opened : l.closed = false)
    (watcher : Watcher) :
    (w.withWatchers id (l.subscribe watcher).2).Holds id (⟨l.next⟩, watcher) :=
  ⟨_, withWatchers_self hl, fun _ => by simp [Listeners.subscribe, opened]⟩

namespace Watched

theorem congr (h : w.Watched) (store : u.store = w.store) (zones : u.zones = w.zones) :
    u.Watched where
  numbered hl := h.numbered (store ▸ hl)
  member hz hm := by
    unfold Holds
    rw [store]
    exact h.member (zones ▸ hz) hm
  zone hs := by
    unfold Holds
    rw [store]
    unfold tracks at hs
    rw [zones] at hs
    exact h.zone hs

theorem member_audience (h : w.Watched) {shape : ElementId} (hm : w.isMember shape id)
    (hl : w.store.watchers? id = some l) (opened : l.closed = false) :
    .member shape ∈ l.audience := by
  obtain ⟨z, sub, hz, hs⟩ := isMember_iff.mp hm
  obtain ⟨l', hl', held⟩ := h.member hz hs
  cases hl.symm.trans hl'
  exact List.mem_map_of_mem (held opened)

theorem zone_audience (h : w.Watched) (hs : w.tracks id) (hl : w.store.watchers? id = some l)
    (opened : l.closed = false) : .shape ∈ l.audience := by
  obtain ⟨sub, l', hl', held⟩ := h.zone hs
  cases hl.symm.trans hl'
  exact List.mem_map_of_mem (held opened)

theorem withWatchers (h : w.Watched) (hl : w.store.watchers? id = some l)
    (numbered : new.Numbered) (kept : ∀ sub watcher, ¬ w.Spent id sub watcher →
      (l.closed = false → (sub, watcher) ∈ l.entries) → new.closed = false →
        (sub, watcher) ∈ new.entries) : (w.withWatchers id new).Watched where
  numbered hi := by
    rw [withWatchers_watchers?] at hi
    split at hi
    · next same =>
      rw [same, hl] at hi
      cases hi
      exact numbered
    · exact h.numbered hi
  member {s z e sub} hz hm := by
    refine (h.member hz hm).withWatchers hl fun he => kept sub (.member s) fun spent => ?_
    subst he
    exact spent z hz hm
  zone hs := by
    obtain ⟨sub, held⟩ := h.zone hs
    refine ⟨sub, held.withWatchers hl fun he => kept sub .shape fun spent => ?_⟩
    subst he
    exact spent hs

theorem subscribe (h : w.Watched) (hl : w.store.watchers? id = some l) (watcher : Watcher) :
    (w.withWatchers id (l.subscribe watcher).2).Watched := by
  refine h.withWatchers hl ((h.numbered hl).subscribe watcher) ?_
  intro sub watcher' _ held opened
  rw [subscribe_closed] at opened
  simp [Listeners.subscribe, opened, held opened]

theorem unwatch (h : w.Watched) {sub : SubscriptionId} (spent : ∀ l, w.store.watchers? id = some l →
    l.closed = false → ∀ watcher, (sub, watcher) ∈ l.entries → w.Spent id sub watcher) :
    (w.unwatch id sub).2.Watched := by
  rcases unwatch_cases w id sub with same | ⟨l, hl, less⟩
  · rwa [same]
  · rw [less]
    refine h.withWatchers hl ((h.numbered hl).unsubscribe sub) ?_
    intro sub' watcher needed held opened
    have hin := held opened
    refine List.mem_filter.mpr ⟨hin, decide_eq_true ?_⟩
    intro same
    cases same
    exact needed (spent _ hl opened watcher hin)

end Watched

/-- The subscription belongs to the shape that the element is a member of. -/
def Belongs (w : World) (shape element : ElementId) (sub : SubscriptionId) : Prop :=
  ∀ l, w.store.watchers? element = some l → l.closed = false →
    ∀ watcher, (sub, watcher) ∈ l.entries → watcher = .member shape

theorem Watched.belongs (h : w.Watched) {shape element : ElementId} {z : Zone}
    {sub : SubscriptionId} (hz : w.zones.find? shape = some z)
    (hm : z.members.find? element = some sub) : w.Belongs shape element sub := by
  intro l hl opened watcher hin
  obtain ⟨l', hl', held⟩ := h.member hz hm
  cases hl.symm.trans hl'
  have same := (h.numbered hl).unique _ hin _ (held opened) rfl
  exact congrArg Prod.snd same

theorem Belongs.unwatch {shape element : ElementId} {sub sub' : SubscriptionId}
    (h : w.Belongs shape element sub) : (w.unwatch id sub').2.Belongs shape element sub := by
  rcases unwatch_cases w id sub' with same | ⟨l', hl', less⟩
  · rwa [same]
  · rw [less]
    intro l hl opened watcher hin
    rw [withWatchers_watchers?] at hl
    split at hl
    · next same =>
      subst same
      rw [hl'] at hl
      cases hl
      exact h l' hl' opened watcher (List.mem_filter.mp hin).1
    · exact h l hl opened watcher hin

theorem announce_watched (h : w.Watched) (s e : ElementId) (c : Crossing) (z : Zone) :
    (w.announce s e c z).Watched := by
  rw [announce_eq]
  exact h.congr rfl rfl

@[simp] theorem modifyZone_tracks (w : World) (s a : ElementId) (f : Zone → Zone) :
    (w.modifyZone s f).tracks a = w.tracks a := by
  unfold tracks modifyZone Table.contains
  rw [Table.find?_modify_eq]
  split <;> simp

theorem Watched.modifyZone (h : w.Watched) {s : ElementId} {f : Zone → Zone}
    (members : ∀ z element sub, (f z).members.find? element = some sub →
      z.members.find? element = some sub ∨ w.Holds element (sub, .member s)) :
    (w.modifyZone s f).Watched where
  numbered := h.numbered
  member {shape z element sub} hz hm := by
    unfold World.modifyZone at hz
    rw [Table.find?_modify_eq] at hz
    split at hz
    · next same =>
      rw [Option.map_eq_some_iff] at hz
      obtain ⟨z', hz', rfl⟩ := hz
      cases members z' element sub hm with
      | inl hm => exact h.member hz' hm
      | inr held =>
        rw [same]
        exact held
    · exact h.member hz hm
  zone hs := h.zone ((modifyZone_tracks ..).symm.trans hs)

theorem Watched.erase (h : w.Watched) (s e : ElementId) :
    (w.modifyZone s fun z => { z with members := z.members.erase e }).Watched := by
  refine h.modifyZone fun z element sub hm => .inl ?_
  dsimp only at hm
  rw [Table.find?_erase] at hm
  split at hm
  · cases hm
  · exact hm

theorem Watched.enter (h : w.Watched) {s e : ElementId} {sub : SubscriptionId}
    (held : w.Holds e (sub, .member s)) :
    (w.modifyZone s fun z => { z with members := z.members.insert e sub }).Watched := by
  refine h.modifyZone fun z element sub' hm => ?_
  dsimp only at hm
  rw [Table.find?_insert] at hm
  split at hm
  · next he =>
    cases hm
    rw [he]
    exact .inr held
  · exact .inl hm

theorem Watched.dropZone (h : w.Watched) (s : ElementId) :
    ({ w with zones := w.zones.erase s } : World).Watched where
  numbered := h.numbered
  member hz hm := by
    rw [Table.find?_erase] at hz
    split at hz
    · cases hz
    · exact h.member hz hm
  zone {shape} hs := by
    unfold tracks Table.contains at hs
    rw [Table.find?_erase] at hs
    split at hs
    · cases hs
    · exact h.zone hs

theorem Watched.addZone (h : w.Watched) {s : ElementId} {sub : SubscriptionId}
    (held : w.Holds s (sub, .shape)) : ({ w with zones := w.zones.insert s {} } : World).Watched where
  numbered := h.numbered
  member hz hm := by
    rw [Table.find?_insert] at hz
    split at hz
    · cases hz
      cases hm
    · exact h.member hz hm
  zone {shape} hs := by
    by_cases same : shape = s
    · exact ⟨sub, same ▸ held⟩
    · unfold tracks Table.contains at hs
      rw [Table.find?_insert, if_neg same] at hs
      exact h.zone hs

theorem checkZone_watched (h : w.Watched) {s e : ElementId} {z : Zone}
    (hz : w.zones.find? s = some z) : (w.checkZone s e z).2.Watched := by
  rcases checkZone_cases w s e z with ⟨hc, _⟩ | ⟨l, _, _, hl, opened, hc⟩ | ⟨sub, _, hm, hc⟩
  · rw [hc]
    exact h
  · rw [hc]
    exact announce_watched ((h.subscribe hl _).enter (subscribe_holds hl opened _)) s e _ z
  · rw [hc]
    refine announce_watched ((h.erase s e).unwatch ?_) s e _ z
    intro l hl opened watcher hin
    cases h.belongs hz hm l hl opened watcher hin
    intro z' hz'
    unfold modifyZone at hz'
    rw [Table.find?_modify_eq, if_pos rfl, hz] at hz'
    cases hz'
    simp

theorem check_watched (h : w.Watched) (s e : ElementId) : (w.check s e).2.Watched := by
  unfold check
  split
  · exact h
  · next z hz => exact checkZone_watched h hz

theorem memberDestroyed_watched (h : w.Watched) (s e : ElementId) :
    (w.memberDestroyed s e).Watched := by
  unfold memberDestroyed
  split
  · exact h
  · split
    · exact announce_watched (h.erase s e) s e _ _
    · exact h

theorem forget_watched (h : w.Watched) (s : ElementId) : (w.forget s).2.Watched := by
  unfold forget
  split
  · exact h
  next z hz =>
  -- Nobody relies on a member's subscription once the zone is gone, and taking back one leaves the
  -- others what they were.
  have leaving (members : List (ElementId × SubscriptionId)) (u : World) (hu : u.Watched)
      (gone : u.zones.find? s = none) (mine : ∀ m ∈ members, u.Belongs s m.1 m.2) :
      (members.foldl (fun u x => (u.unwatch x.1 x.2).2) u).Watched := by
    induction members generalizing u with
    | nil => exact hu
    | cons m members ih =>
      refine ih _ (hu.unwatch ?_) ?_ fun m' hm' => ?_
      · intro l hl opened watcher hin
        cases mine m List.mem_cons_self l hl opened watcher hin
        intro z' hz'
        cases gone.symm.trans hz'
      · rw [unwatch_zones]
        exact gone
      · exact (mine m' (List.mem_cons_of_mem _ hm')).unwatch
  refine leaving z.members.entries { w with zones := w.zones.erase s } ?_ ?_ ?_
  · exact h.dropZone s
  · exact Table.find?_erase_self ..
  · intro m hm
    exact h.belongs hz (Table.find?_of_mem hm)

end World
end SharedWorld
