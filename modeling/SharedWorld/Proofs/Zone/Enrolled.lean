import SharedWorld.Proofs.Listeners.Stage
import SharedWorld.Proofs.Zone.Requests

/-! The members of shapes and the watchers on their account. Whatever happens, a watcher that stands for
a member is there only as long as the membership, and never twice; and every member has its watcher as
long as nobody else takes that back. -/
namespace SharedWorld

open Store

namespace World
variable {w u v : World} {shape id : ElementId} {sub : SubscriptionId} {l new : Listeners Watcher}

/-- The element is a member of the shape, on account of that subscription. -/
def Enlists (w : World) (shape id : ElementId) (sub : SubscriptionId) : Prop :=
  ∃ z, w.zones.find? shape = some z ∧ z.members.find? id = some sub

/-- The registries of watchers have nothing about members that the shapes do not know of. -/
structure Backed (w : World) : Prop where
  sorted : ∀ {id l}, w.store.watchers? id = some l → l.Sorted
  drained : ∀ {id l}, w.store.watchers? id = some l → l.closed → l.entries = []
  known : ∀ {id l sub shape}, w.store.watchers? id = some l → (sub, .member shape) ∈ l.entries →
    w.Enlists shape id sub

/-- Every member has its watcher, unless the watchers have been called. -/
def Attended (w : World) : Prop := ∀ {shape id sub}, w.Enlists shape id sub →
  w.Holds id (sub, .member shape)

/-- What is in step stays in step. -/
structure Keeps (w u : World) : Prop where
  backed : w.Backed → u.Backed
  attended : w.Backed → w.Attended → u.Attended

namespace Keeps

theorem refl (w : World) : Keeps w w := ⟨id, fun _ => id⟩

theorem trans (h : Keeps w u) (h' : Keeps u v) : Keeps w v :=
  ⟨h'.backed ∘ h.backed, fun ok att => h'.attended (h.backed ok) (h.attended ok att)⟩

theorem of_same (registries : SameWatchers w.store u.store)
    (members : ∀ shape id sub, u.Enlists shape id sub ↔ w.Enlists shape id sub) : Keeps w u where
  backed ok := ⟨fun hl => ok.sorted ((registries _).symm.trans hl),
    fun hl => ok.drained ((registries _).symm.trans hl),
    fun hl hin => (members ..).mpr (ok.known ((registries _).symm.trans hl) hin)⟩
  attended _ att := fun hm => by
    obtain ⟨l, hl, held⟩ := att ((members ..).mp hm)
    exact ⟨l, (registries _).trans hl, held⟩

theorem congr (store : u.store = w.store) (zones : u.zones = w.zones) : Keeps w u :=
  .of_same (fun _ => by rw [store]) fun _ _ _ => by unfold Enlists; rw [zones]

end Keeps

theorem Enlists.unique {sub' : SubscriptionId} (h : w.Enlists shape id sub)
    (h' : w.Enlists shape id sub') : sub = sub' := by
  obtain ⟨z, hz, hm⟩ := h
  obtain ⟨z', hz', hm'⟩ := h'
  cases hz.symm.trans hz'
  exact Option.some.inj (hm.symm.trans hm')

theorem Attended.belongs (att : w.Attended) (ok : w.Backed) (hm : w.Enlists shape id sub)
    (hl : w.store.watchers? id = some l) {watcher : Watcher} (hin : (sub, watcher) ∈ l.entries) :
    watcher = .member shape := by
  obtain ⟨l', hl', held⟩ := att hm
  cases hl.symm.trans hl'
  cases opened : l.closed with
  | true =>
    rw [ok.drained hl opened] at hin
    cases hin
  | false => exact (ok.sorted hl).unique hin (held opened)

theorem Backed.single (ok : w.Backed) (hm : w.Enlists shape id sub)
    (hl : w.store.watchers? id = some l) (hin : (sub, .member shape) ∈ l.entries) :
    l.entries.filter (fun e => e.2 = .member shape) = [(sub, .member shape)] := by
  have only : ∀ e ∈ l.entries.filter (fun e => e.2 = .member shape), e = (sub, .member shape) := by
    intro e he
    obtain ⟨he, same⟩ := List.mem_filter.mp he
    obtain ⟨sub', watcher⟩ := e
    cases of_decide_eq_true same
    rw [(ok.known hl he).unique hm]
  have there : (sub, .member shape) ∈ l.entries.filter (fun e => e.2 = .member shape) :=
    List.mem_filter.mpr ⟨hin, by simp⟩
  have apart := (ok.sorted hl).ascending.filter fun e => decide (e.2 = .member shape)
  generalize l.entries.filter (fun e => e.2 = .member shape) = found at only there apart
  match found with
  | [] => cases there
  | [e] => rw [only e List.mem_cons_self]
  | e :: e' :: rest =>
    have lt := (List.pairwise_cons.mp apart).1 e' List.mem_cons_self
    rw [only e (by simp), only e' (by simp)] at lt
    exact absurd lt (Nat.lt_irrefl _)

theorem enlists_modifyZone (w : World) (s : ElementId) (f : Zone → Zone) :
    (w.modifyZone s f).Enlists shape id sub ↔ if shape = s then
      ∃ z, w.zones.find? s = some z ∧ (f z).members.find? id = some sub
    else w.Enlists shape id sub := by
  unfold Enlists
  rw [find?_modifyZone]
  split
  · next same => simp [same]
  · exact Iff.rfl

theorem enlists_erase (w : World) (s e : ElementId) :
    (w.modifyZone s fun z => { z with members := z.members.erase e }).Enlists shape id sub ↔
      w.Enlists shape id sub ∧ ¬ (shape = s ∧ id = e) := by
  rw [enlists_modifyZone]
  split
  · next same =>
    subst same
    by_cases he : id = e <;> simp [Enlists, Table.find?_erase, he]
  · next other => simp [other]

theorem withWatchers_cases {a : ElementId} {l' : Listeners Watcher}
    (hl : w.store.watchers? id = some l)
    (h : (w.withWatchers id new).store.watchers? a = some l') :
    (a = id ∧ l' = new) ∨ w.store.watchers? a = some l' := by
  rw [withWatchers_watchers?] at h
  split at h
  · next ha =>
    rw [ha, hl] at h
    exact .inl ⟨ha, (Option.some.inj h).symm⟩
  · exact .inr h

theorem Backed.withWatchers (ok : w.Backed) (hl : w.store.watchers? id = some l)
    (store : u.store = (w.withWatchers id new).store) (sorted : new.Sorted)
    (drained : new.closed → new.entries = [])
    (known : ∀ sub shape, (sub, .member shape) ∈ new.entries → u.Enlists shape id sub)
    (more : ∀ shape a sub, w.Enlists shape a sub → u.Enlists shape a sub) : u.Backed := by
  refine ⟨fun h => ?_, fun h => ?_, fun h hin => ?_⟩
  · rcases withWatchers_cases hl (store ▸ h) with ⟨_, rfl⟩ | h
    · exact sorted
    · exact ok.sorted h
  · rcases withWatchers_cases hl (store ▸ h) with ⟨_, rfl⟩ | h
    · exact drained
    · exact ok.drained h
  · rcases withWatchers_cases hl (store ▸ h) with ⟨rfl, rfl⟩ | h
    · exact known _ _ hin
    · exact more _ _ _ (ok.known h hin)

theorem mem_subscribe {watcher other : Watcher} (opened : l.closed = false) :
    (sub, other) ∈ (l.subscribe watcher).2.entries ↔
      (sub, other) ∈ l.entries ∨ (sub = ⟨l.next⟩ ∧ other = watcher) := by
  simp [Listeners.subscribe, opened]

theorem Attended.subscribe (att : w.Attended) (hl : w.store.watchers? id = some l) (watcher : Watcher) :
    (w.withWatchers id (l.subscribe watcher).2).Attended := fun hm =>
  (att hm).withWatchers hl fun _ held opened => by
    rw [subscribe_closed] at opened
    exact (mem_subscribe opened).mpr (.inl (held opened))

theorem keeps_subscribe (hl : w.store.watchers? id = some l) (opened : l.closed = false)
    {watcher : Watcher} (other : ∀ s, watcher ≠ .member s) :
    Keeps w (w.withWatchers id (l.subscribe watcher).2) where
  backed ok := by
    refine ok.withWatchers hl rfl ((ok.sorted hl).subscribe watcher) (fun closed => ?_)
      (fun sub shape hin => ?_) fun _ _ _ hm => hm
    · rw [subscribe_closed, opened] at closed
      cases closed
    · rcases (mem_subscribe opened).mp hin with hin | ⟨_, same⟩
      · exact ok.known hl hin
      · exact absurd same.symm (other shape)
  attended _ att := att.subscribe hl watcher

theorem keeps_enter {s e : ElementId} {z : Zone} (hz : w.zones.find? s = some z)
    (new : z.members.find? e = none) (hl : w.store.watchers? e = some l) (opened : l.closed = false) :
    Keeps w ((w.withWatchers e (l.subscribe (.member s)).2).modifyZone s fun z =>
      { z with members := z.members.insert e ⟨l.next⟩ }) := by
  have enlists {shape a : ElementId} {sub : SubscriptionId} :
      ((w.withWatchers e (l.subscribe (.member s)).2).modifyZone s fun z =>
        { z with members := z.members.insert e ⟨l.next⟩ }).Enlists shape a sub ↔
      (shape = s ∧ a = e ∧ sub = ⟨l.next⟩) ∨ w.Enlists shape a sub := by
    rw [enlists_modifyZone]
    split
    · next same =>
      subst same
      by_cases he : a = e
      · simp [Enlists, World.withWatchers, hz, he, new, eq_comm]
      · simp [Enlists, World.withWatchers, hz, he, Table.find?_insert]
    · next other => simp [other, Enlists, World.withWatchers]
  refine ⟨fun ok => ?_, fun ok att => ?_⟩
  · refine ok.withWatchers hl rfl ((ok.sorted hl).subscribe _) (fun closed => ?_)
      (fun sub shape hin => ?_) fun _ _ _ hm => enlists.mpr (.inr hm)
    · rw [subscribe_closed, opened] at closed
      cases closed
    · rcases (mem_subscribe opened).mp hin with hin | ⟨rfl, same⟩
      · exact enlists.mpr (.inr (ok.known hl hin))
      · cases same
        exact enlists.mpr (.inl ⟨rfl, rfl, rfl⟩)
  · intro shape a sub hm
    rcases enlists.mp hm with ⟨rfl, rfl, rfl⟩ | hm
    · exact subscribe_holds hl opened _
    · exact att.subscribe hl _ hm

/-- Some subscriptions are taken back, and nothing else happens to any registry. -/
def Drops (drop : ElementId → SubscriptionId → Bool) (w u : World) : Prop :=
  ∀ a, u.store.watchers? a = (w.store.watchers? a).map fun l =>
    { l with entries := l.entries.filter fun x => !drop a x.1 }

theorem unwatch_drops (w : World) (id : ElementId) (sub : SubscriptionId) :
    Drops (fun a x => a = id ∧ x = sub) w (w.unwatch id sub).2 := by
  intro a
  have others (ha : a ≠ id) (l : Listeners Watcher) :
      l.entries.filter (fun x => !decide (a = id ∧ x.1 = sub)) = l.entries := by simp [ha]
  cases absent : w.store.residents.find? id with
  | none =>
    have same : (w.unwatch id sub).2 = w := by simp [World.unwatch, absent]
    rw [same]
    by_cases ha : a = id
    · simp [ha, watchers?, absent]
    · simp only [others ha, Option.map_id']
  | some r =>
    have less : (w.unwatch id sub).2 = w.withWatchers id (r.destroyed.unsubscribe sub).2 := by
      simp [World.unwatch, absent, World.withWatchers]
    rw [less, withWatchers_watchers?]
    split
    · next ha => simp [ha, watchers?, absent, Listeners.unsubscribe]
    · next ha => simp only [others ha, Option.map_id']

theorem Drops.backed {drop : ElementId → SubscriptionId → Bool} (h : Drops drop w u)
    (known : ∀ shape a x, w.Enlists shape a x → drop a x = false → u.Enlists shape a x)
    (ok : w.Backed) : u.Backed := by
  refine ⟨fun hl => ?_, fun hl closed => ?_, fun hl hin => ?_⟩
  all_goals
    rw [h, Option.map_eq_some_iff] at hl
    obtain ⟨l, hl, rfl⟩ := hl
  · exact ⟨fun e he => (ok.sorted hl).below e (List.mem_filter.mp he).1,
      (ok.sorted hl).ascending.filter _⟩
  · rw [ok.drained hl closed]
    rfl
  · obtain ⟨hin, kept⟩ := List.mem_filter.mp hin
    exact known _ _ _ (ok.known hl hin) (by simpa using kept)

theorem Drops.holds {drop : ElementId → SubscriptionId → Bool} (h : Drops drop w u)
    {entry : SubscriptionId × Watcher} (held : w.Holds id entry)
    (kept : ∀ l, w.store.watchers? id = some l → entry ∈ l.entries → drop id entry.1 = false) :
    u.Holds id entry := by
  obtain ⟨l, hl, held⟩ := held
  refine ⟨_, (h id).trans (congrArg (Option.map _) hl), fun opened => List.mem_filter.mpr ?_⟩
  exact ⟨held opened, by rw [kept l hl (held opened)]; rfl⟩

theorem Drops.keeps {drop : ElementId → SubscriptionId → Bool} (h : Drops drop w u) {s : ElementId}
    (mine : ∀ a x, drop a x → w.Enlists s a x) (left : ∀ shape a x, u.Enlists shape a x ↔
      w.Enlists shape a x ∧ ¬ (shape = s ∧ drop a x)) : Keeps w u where
  backed := h.backed fun shape a x hm kept => (left ..).mpr ⟨hm, fun gone => by simp [gone.2] at kept⟩
  attended ok att := fun {shape a x} hm => by
    obtain ⟨before, other⟩ := (left ..).mp hm
    refine h.holds (att before) fun l hl hin => Bool.eq_false_iff.mpr fun gone => other ⟨?_, gone⟩
    exact Watcher.member.inj (att.belongs ok (mine a x gone) hl hin)

theorem keeps_announce (w : World) (s e : ElementId) (c : Crossing) (z : Zone) :
    Keeps w (w.announce s e c z) := by
  rw [announce_eq]
  exact .congr rfl rfl

theorem keeps_check (w : World) (s e : ElementId) : Keeps w (w.check s e).2 := by
  unfold check
  split
  · exact .refl w
  next z hz =>
  rcases checkZone_cases w s e z with ⟨hc, _⟩ | ⟨l, _, new, hl, opened, hc⟩ | ⟨sub, _, hm, hc⟩
  · rw [hc]
    exact .refl w
  · rw [hc]
    exact (keeps_enter hz new hl opened).trans (keeps_announce ..)
  · rw [hc]
    have mine : w.Enlists s e sub := ⟨z, hz, hm⟩
    have gone : Drops (fun a x => a = e ∧ x = sub) w ((w.modifyZone s fun z =>
        { z with members := z.members.erase e }).unwatch e sub).2 :=
      fun a => unwatch_drops (w.modifyZone s _) e sub a
    refine (gone.keeps (s := s) (fun a x h => ?_) fun shape a x => ?_).trans (keeps_announce ..)
    · obtain ⟨rfl, rfl⟩ := of_decide_eq_true h
      exact mine
    · have zones : ((w.modifyZone s fun z => { z with members := z.members.erase e }).unwatch
          e sub).2.Enlists shape a x ↔ w.Enlists shape a x ∧ ¬ (shape = s ∧ a = e) := by
        unfold Enlists
        rw [unwatch_zones]
        exact enlists_erase w s e
      rw [zones]
      refine and_congr_right fun hm => not_congr (and_congr_right fun hs => ?_)
      subst hs
      rw [decide_eq_true_eq]
      exact ⟨fun ha => ⟨ha, (ha ▸ hm).unique mine⟩, And.left⟩

theorem keeps_memberDestroyed {s e : ElementId} (shut : w.Shut e) :
    Keeps w (w.memberDestroyed s e) := by
  unfold memberDestroyed
  split
  · exact .refl w
  split
  · have erased : Keeps w (w.modifyZone s fun z => { z with members := z.members.erase e }) := by
      refine ⟨fun ok => ⟨ok.sorted, ok.drained, fun hl hin => ?_⟩, fun _ att _ _ _ hm => ?_⟩
      · refine (enlists_erase w s e).mpr ⟨ok.known hl hin, fun here => ?_⟩
        obtain ⟨l, hl', closed⟩ := shut
        cases hl.symm.trans (here.2 ▸ hl')
        rw [ok.drained hl closed] at hin
        cases hin
      · exact att ((enlists_erase w s e).mp hm).1
    exact erased.trans (keeps_announce ..)
  · exact .refl w

/-- A shape that is forgotten takes back the subscriptions that it has for its members. -/
theorem forget_drops {s : ElementId} {z : Zone} (hz : w.zones.find? s = some z) :
    Drops (fun a x => (a, x) ∈ z.members.entries) w (w.forget s).2 := by
  have leaving (members : List (ElementId × SubscriptionId)) (u : World) :
      Drops (fun a x => (a, x) ∈ members) u
        (members.foldl (fun u x => (u.unwatch x.1 x.2).2) u) := by
    induction members generalizing u with
    | nil =>
      intro a
      simp
    | cons m members ih =>
      intro a
      rw [List.foldl_cons, ih, unwatch_drops, Option.map_map]
      refine congrArg (Option.map · _) (funext fun l => ?_)
      simp only [Function.comp_apply, List.filter_filter, Listeners.mk.injEq, true_and]
      refine List.filter_congr fun x _ => ?_
      by_cases same : a = m.1 ∧ x.1 = m.2 <;> simp [same, Prod.ext_iff]
  have all : (w.forget s).2 = z.members.entries.foldl (fun u x => (u.unwatch x.1 x.2).2)
      { w with zones := w.zones.erase s } := by simp [forget, hz]
  rw [all]
  exact leaving z.members.entries { w with zones := w.zones.erase s }

theorem keeps_forget (w : World) (s : ElementId) : Keeps w (w.forget s).2 := by
  cases hz : w.zones.find? s with
  | none =>
    have same : (w.forget s).2 = w := by simp [forget, hz]
    rw [same]
    exact .refl w
  | some z =>
    refine (forget_drops hz).keeps (s := s) (fun a x h => ?_) fun shape a x => ?_
    · exact ⟨z, hz, Table.find?_of_mem (of_decide_eq_true h)⟩
    · unfold Enlists
      rw [forget_zones]
      split
      · next same =>
        subst same
        simp only [reduceCtorEq, false_and, exists_false, false_iff, true_and, decide_eq_true_eq]
        rintro ⟨⟨z', hz', hm⟩, kept⟩
        cases hz.symm.trans hz'
        exact kept (Table.mem_of_find? hm)
      · next other => simp [other]

theorem keeps_noteCheck (w : World) (tag : String) (id : ElementId) (checked : Option ElementId) :
    Keeps w (w.noteCheck tag id checked) := by
  cases checked with
  | none => exact .refl w
  | some s => exact (keeps_check w s id).trans (.congr rfl rfl)

section Notify
variable {remove : ElementId → World → Except WorldError Element × World}
  (hr : ∀ id w, Orderly w (remove id w).2) (hk : ∀ id w, Keeps w (remove id w).2)
include hk

theorem keeps_heed (shut : w.Shut id) (watcher : Watcher) : Keeps w (heed remove id watcher w) := by
  cases watcher with
  | member s => exact keeps_memberDestroyed shut
  | shape => exact keeps_forget w id
  | note tag checked removed =>
    have noted : Keeps w (w.call (.destroyed tag id (w.store.contains id))) := .congr rfl rfl
    refine noted.trans ((keeps_noteCheck _ tag id checked).trans ?_)
    cases removed with
    | none => exact .refl _
    | some other => exact (hk other _).trans (.congr rfl rfl)

include hr

theorem keeps_notify (shut : w.Shut id) (watchers : List Watcher) :
    Keeps w (notify remove id watchers w) := by
  induction watchers generalizing w with
  | nil => exact .refl w
  | cons watcher rest ih =>
    rw [notify_cons]
    exact (keeps_heed hk shut watcher).trans (ih (((heed_orderly hr id watcher w).shut id).mpr shut))

end Notify

theorem keeps_closing (hl : w.store.watchers? id = some l) : Keeps w (w.closing id l) := by
  have closed : l.close.2.closed := by
    unfold Listeners.close
    split
    · assumption
    · rfl
  have none (ok : w.Backed) : l.close.2.entries = [] := by
    unfold Listeners.close
    split
    · next closed => exact ok.drained hl closed
    · rfl
  refine ⟨fun ok => ?_, fun _ att _ _ _ hm => ?_⟩
  · refine ok.withWatchers hl rfl (ok.sorted hl).close (fun _ => none ok) (fun sub shape hin => ?_)
      fun _ _ _ hm => hm
    rw [none ok] at hin
    cases hin
  · exact (att hm).withWatchers hl fun _ _ opened => absurd closed (by simp [opened])

section Told
variable {remove : ElementId → World → Except WorldError Element × World}
  (hr : ∀ id w, Orderly w (remove id w).2) (hk : ∀ id w, Keeps w (remove id w).2)
  (hl : w.store.watchers? id = some l) (opened : l.closed = false)
include hr hl opened

theorem Attended.outside (att : w.Attended) (s : ElementId) :
    ¬ (notify remove id l.audience (w.closing id l)).isMember s id := by
  refine told_left hr hl fun member => ?_
  obtain ⟨z, sub, hz, hm⟩ := isMember_iff.mp member
  obtain ⟨l', hl', held⟩ := att ⟨z, hz, hm⟩
  cases hl.symm.trans hl'
  exact List.mem_map_of_mem (held opened)

include hk

theorem keeps_told {told : World} (ht : told = notify remove id l.audience (w.closing id l))
    {gone : Element} {t : Store} (hev : told.store.evict id = some (gone, t)) :
    Keeps w { told with store := t } := by
  have shut : (w.closing id l).Shut id := (closing_shut hl id).mpr (.inl rfl)
  have heard : Keeps w told := ht ▸ (keeps_closing hl).trans (keeps_notify hr hk shut l.audience)
  refine ⟨fun ok => ?_, fun ok att s a x hm => ?_⟩
  · have before {a : ElementId} {l' : Listeners Watcher} (h : t.watchers? a = some l') :
        told.store.watchers? a = some l' := by
      rw [watchers?_evict hev] at h
      split at h
      · cases h
      · exact h
    have told_ok := heard.backed ok
    exact ⟨fun h => told_ok.sorted (before h), fun h => told_ok.drained (before h),
      fun h hin => told_ok.known (before h) hin⟩
  · have other : a ≠ id := by
      rintro rfl
      obtain ⟨z, hz, hm⟩ := hm
      refine att.outside hr hl opened s ?_
      rw [← ht]
      exact isMember_iff.mpr ⟨z, x, hz, hm⟩
    obtain ⟨l', hl', held⟩ := heard.attended ok att hm
    refine ⟨l', ?_, held⟩
    dsimp only
    rwa [watchers?_evict hev, if_neg other]

end Told

theorem keeps_removeWithin (depth : Nat) (id : ElementId) (w : World) :
    Keeps w (removeWithin depth id w).2 := by
  induction depth generalizing id w with
  | zero => exact .refl w
  | succ depth ih =>
    rcases removeWithin_told (depth + 1) id w with ⟨_, h, _⟩ | ⟨n, l, told, hn, hl, opened, ht, h⟩
    · rw [h]
      exact .refl w
    · cases hn
      obtain ⟨gone, t, hev⟩ := told_evicts (removeWithin_orderly depth) hl
      rw [← ht] at hev
      rw [h, hev]
      exact keeps_told (removeWithin_orderly depth) ih hl opened ht hev

end World
end SharedWorld
