import SharedWorld.Proofs.Store.Tree
import SharedWorld.World

/-! Watching, crossings and the zones of shapes have no part in who refers to whom. A removal, with
the removals that its watchers begin, evicts elements one after another. -/
namespace SharedWorld
namespace Store
variable {s t u : Store}

/-- The same elements and the same indexes; only those who watch may be others. -/
structure Alike (s t : Store) : Prop where
  root : t.root = s.root
  size : t.size = s.size
  types : t.types = s.types
  grid : t.grid = s.grid
  ids : t.ids = s.ids
  find? : ∀ a, t.find? a = s.find? a

theorem Alike.refl (s : Store) : Alike s s := ⟨rfl, rfl, rfl, rfl, rfl, fun _ => rfl⟩

theorem Alike.trans (h : Alike s t) (h' : Alike t u) : Alike s u where
  root := h'.root.trans h.root
  size := h'.size.trans h.size
  types := h'.types.trans h.types
  grid := h'.grid.trans h.grid
  ids := h'.ids.trans h.ids
  find? a := (h'.find? a).trans (h.find? a)

theorem Alike.quiet (h : Alike s t) : Quiet s t := by
  refine ⟨h.root, h.size, fun a => ?_, fun tie a b => ?_⟩
  · unfold type?
    rw [h.find?]
  · unfold Refers
    rw [h.find?]

theorem modifyWatchers_alike (s : Store) (id : ElementId)
    (f : Listeners Watcher → Listeners Watcher) : Alike s (s.modifyWatchers id f) := by
  refine ⟨rfl, List.length_map .., rfl, rfl, rfl, fun a => ?_⟩
  unfold Store.find? modifyWatchers
  rw [Table.find?_modify_eq]
  split
  · simp [Function.comp_def]
  · rfl

/-- Elements are evicted one after another, none of them the root. -/
inductive Removals : Store → Store → Prop
  | alike {s t : Store} : Alike s t → Removals s t
  | evict {s t : Store} {id : ElementId} {gone : Element} :
    id ≠ s.root → s.evict id = some (gone, t) → Removals s t
  | trans {s t u : Store} : Removals s t → Removals t u → Removals s u

namespace Removals

theorem root (h : Removals s t) : t.root = s.root := by
  induction h with
  | alike h => exact h.root
  | evict _ h => exact evict_root h
  | trans _ _ ih ih' => exact ih'.trans ih

theorem linked (h : Removals s t) (ok : s.Linked) : t.Linked := by
  induction h with
  | alike h => exact ok.of_quiet h.quiet
  | evict hid h => exact ok.of_evicted hid (evict_evicted ok h)
  | trans _ _ ih ih' => exact ih' (ih ok)

end Removals
end Store

open Store

namespace World

@[simp] theorem publish_store (w : World) (e : WorldEvent) : (w.publish e).store = w.store := rfl

@[simp] theorem call_store (w : World) (c : Call) : (w.call c).store = w.store := rfl

@[simp] theorem modifyZone_store (w : World) (shape : ElementId) (f : Zone → Zone) :
    (w.modifyZone shape f).store = w.store := rfl

@[simp] theorem announce_store (w : World) (shape element : ElementId) (crossing : Crossing)
    (z : Zone) : (w.announce shape element crossing z).store = w.store := by
  have calls (tags : List String) (w : World) :
      (tags.foldl (fun w tag => w.call (.crossed tag crossing shape element)) w).store = w.store := by
    induction tags generalizing w with
    | nil => rfl
    | cons tag tags ih => exact ih _
  exact calls _ w

theorem watch_alike (w : World) (id : ElementId) (watcher : Watcher) :
    Alike w.store (w.watch id watcher).2.store := by
  unfold watch
  split
  · exact Alike.refl _
  · split
    · exact Alike.refl _
    · next registry _ => exact modifyWatchers_alike w.store id fun _ => registry

theorem unwatch_alike (w : World) (id : ElementId) (sub : SubscriptionId) :
    Alike w.store (w.unwatch id sub).2.store := by
  unfold unwatch
  split
  · exact Alike.refl _
  · next r _ => exact modifyWatchers_alike w.store id fun _ => (r.destroyed.unsubscribe sub).2

theorem checkZone_alike (w : World) (shape element : ElementId) (z : Zone) :
    Alike w.store (w.checkZone shape element z).2.store := by
  unfold checkZone
  split
  · exact Alike.refl _
  · split
    · have entering := watch_alike w element (.member shape)
      split
      · exact Alike.refl _
      · next h =>
        rw [h] at entering
        simpa using entering
    · simpa using unwatch_alike (w.modifyZone shape _) element _
    · exact Alike.refl _

theorem check_alike (w : World) (shape element : ElementId) :
    Alike w.store (w.check shape element).2.store := by
  unfold check
  split
  · exact Alike.refl _
  · exact checkZone_alike w shape element _

theorem checkAll_alike (pairs : List (ElementId × ElementId)) (w : World) :
    Alike w.store (w.checkAll pairs).2.store := by
  induction pairs generalizing w with
  | nil => exact Alike.refl _
  | cons pair pairs ih => exact (check_alike w pair.1 pair.2).trans (ih _)

theorem runPass_alike (w : World) : Alike w.store w.runPass.2.store := by
  unfold runPass
  generalize w.zones.keys = shapes
  induction shapes generalizing w with
  | nil => exact Alike.refl _
  | cons shape shapes ih =>
    unfold runPass.pass
    refine Alike.trans ?_ (ih _)
    split
    · split
      · exact checkAll_alike ..
      · exact Alike.refl _
    · exact Alike.refl _

theorem forget_alike (w : World) (shape : ElementId) :
    Alike w.store (w.forget shape).2.store := by
  unfold forget
  split
  · exact Alike.refl _
  · next z _ =>
    have leaving (members : List (ElementId × SubscriptionId)) (w : World) : Alike w.store
        (members.foldl (fun w x => (w.unwatch x.1 x.2).2) w).store := by
      induction members generalizing w with
      | nil => exact Alike.refl _
      | cons member members ih => exact (unwatch_alike w member.1 member.2).trans (ih _)
    exact leaving z.members.entries { w with zones := w.zones.erase shape }

theorem register_alike (w : World) (shape : ElementId) :
    Alike w.store (w.register shape).2.store := by
  unfold register
  split
  · exact Alike.refl _
  · split
    · exact Alike.refl _
    · have watching := watch_alike w shape .shape
      split
      · next h =>
        rw [h] at watching
        exact watching
      · next h =>
        rw [h] at watching
        exact watching
  · exact Alike.refl _

theorem memberDestroyed_store (w : World) (shape element : ElementId) :
    (w.memberDestroyed shape element).store = w.store := by
  unfold memberDestroyed
  split
  · rfl
  · split
    · simp
    · rfl

theorem noteCheck_alike (w : World) (tag : String) (id : ElementId) (checked : Option ElementId) :
    Alike w.store (w.noteCheck tag id checked).store := by
  cases checked with
  | none => exact Alike.refl _
  | some shape => exact check_alike w shape id

section Notify
variable {remove : ElementId → World → Except WorldError Element × World}

theorem noteRemoval_removals (hr : ∀ id w, Removals w.store (remove id w).2.store) (w : World)
    (tag : String) (removed : Option ElementId) :
    Removals w.store (w.noteRemoval remove tag removed).store := by
  cases removed with
  | none => exact .alike (Alike.refl _)
  | some other => exact hr other w

theorem notify_removals (hr : ∀ id w, Removals w.store (remove id w).2.store) (id : ElementId)
    (watchers : List Watcher) (w : World) :
    Removals w.store (notify remove id watchers w).store := by
  induction watchers generalizing w with
  | nil => exact .alike (Alike.refl _)
  | cons watcher watchers ih =>
    cases watcher with
    | member shape =>
      have rest := ih (w.memberDestroyed shape id)
      rw [memberDestroyed_store] at rest
      exact rest
    | shape => exact .trans (.alike (forget_alike w id)) (ih _)
    | note tag checked removed =>
      have checks := noteCheck_alike (w.call (.destroyed tag id (w.store.contains id))) tag id checked
      exact .trans (.alike checks) (.trans (noteRemoval_removals hr _ tag removed) (ih _))

end Notify

/-- One removal: it is refused, or the watchers are told and the element is evicted after that. -/
theorem removeWithin_cases (depth : Nat) (id : ElementId) (w : World) :
    (∃ err, removeWithin (depth + 1) id w = (.error err, w)) ∨
      ∃ watchers begun told, id ≠ w.store.root ∧ Alike w.store begun.store ∧
        told = notify (removeWithin depth) id watchers begun ∧
        removeWithin (depth + 1) id w = match told.store.evict id with
          | none => (.error (.notFound id), told)
          | some (e, store) => (.ok e, { told with store }) := by
  rw [removeWithin]
  split
  · exact .inl ⟨_, rfl⟩
  next hroot =>
  split
  · exact .inl ⟨_, rfl⟩
  split
  · exact .inl ⟨_, rfl⟩
  next watchers registry _ =>
    exact .inr ⟨watchers, _, _, hroot, modifyWatchers_alike w.store id fun _ => registry, rfl, rfl⟩

theorem removeWithin_removals (depth : Nat) (id : ElementId) (w : World) :
    Removals w.store (removeWithin depth id w).2.store ∧
      ∀ e, (removeWithin depth id w).1 = .ok e → id ≠ w.store.root ∧ ∃ u, Removals w.store u ∧
        u.evict id = some (e, (removeWithin depth id w).2.store) := by
  induction depth generalizing id w with
  | zero => exact ⟨.alike (Alike.refl _), fun e h => by simp [removeWithin] at h⟩
  | succ depth ih =>
    rcases removeWithin_cases depth id w with ⟨err, h⟩ | ⟨watchers, begun, told, hroot, hb, ht, h⟩
    · rw [h]
      exact ⟨.alike (Alike.refl _), fun e he => by cases he⟩
    · have heard : Removals w.store told.store := by
        rw [ht]
        exact .trans (.alike hb) (notify_removals (fun id w => (ih id w).1) id watchers begun)
      cases hev : told.store.evict id with
      | none =>
        rw [h, hev]
        exact ⟨heard, fun e he => by cases he⟩
      | some left =>
        rw [h, hev]
        have hid : id ≠ told.store.root := by rwa [heard.root]
        refine ⟨.trans heard (.evict hid hev), fun e he => ⟨hroot, told.store, heard, ?_⟩⟩
        cases he
        exact hev

end World
end SharedWorld
