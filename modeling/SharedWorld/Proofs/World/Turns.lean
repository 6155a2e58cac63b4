import Mathlib.Logic.Relation
import SharedWorld.Proofs.World.Run

/-! Whatever is asked of a world comes, for its elements, to a chain of turns: an operation on the
store, an edit of a shape, an element that goes. What every turn keeps holds at the end. -/
namespace SharedWorld
namespace Store
variable {s t : Store}

inductive Turn (s : Store) : Store → Prop
  | alike {t : Store} (h : Alike s t) : Turn s t
  | perform (op : Op) : Turn s (s.perform op)
  | reshape {t : Store} (h : Reshaped s t) : Turn s t
  | evict {t : Store} {id : ElementId} {gone : Element} (notRoot : id ≠ s.root)
      (h : s.evict id = some (gone, t)) : Turn s t

abbrev Turns : Store → Store → Prop := Relation.ReflTransGen Turn

theorem Turn.linked (h : Turn s t) (ok : s.Linked) : t.Linked := by
  cases h with
  | alike h => exact ok.of_quiet h.quiet
  | perform op => exact (perform_effect ok op).linked ok
  | reshape h => exact ok.of_quiet h.quiet
  | evict notRoot h => exact ok.of_evicted notRoot (evict_evicted ok h)

theorem Turns.linked (h : Turns s t) (ok : s.Linked) : t.Linked := by
  induction h with
  | refl => exact ok
  | tail _ turn ih => exact turn.linked ih

/-- A property of linked stores that every turn keeps. -/
theorem Turns.keep {P : Store → Prop} (h : Turns s t) (ok : s.Linked)
    (turn : ∀ {s t}, s.Linked → Turn s t → P s → P t) (start : P s) : P t := by
  induction h with
  | refl => exact start
  | tail before step ih => exact turn (Turns.linked before ok) step ih

theorem Turn.turns (h : Turn s t) : Turns s t := .single h

theorem Removals.turns (h : Removals s t) : Turns s t := by
  induction h with
  | alike h => exact (Turn.alike h).turns
  | evict notRoot h => exact (Turn.evict notRoot h).turns
  | trans _ _ first rest => exact first.trans rest

theorem Turn.of_after (op : Op) {answer : Except WorldError Store}
    (same : s.perform op = s.after answer) (h : answer = .ok t) : Turn s t := by
  have done : s.perform op = t := by rw [same, h]; rfl
  exact done ▸ .perform op

theorem update_turn {id : ElementId} {f : Element → Element} (tame : Element.Tame f)
    (h : s.update id f = .ok t) : Turn s t :=
  .of_after (.update id ⟨f, tame⟩) rfl h

theorem propagate_turn (s : Store) (target : ElementId) : Turn s (s.propagate target).2 :=
  .perform (.propagate target)

theorem attachToTower_turn {trailer : ElementId} {tower : Option ElementId} {changed : Bool}
    (h : s.attachToTower trailer tower = .ok (changed, t)) : Turn s t :=
  .of_after (.attachToTower trailer tower) rfl (by rw [h]; rfl)

theorem detachTowed_turn {tower : ElementId} {trailer : Option ElementId}
    (h : s.detachTowed tower = .ok (trailer, t)) : Turn s t :=
  .of_after (.detachTowed tower) rfl (by rw [h]; rfl)

end Store

open Store

namespace World

theorem perform_turns (w : World) (op : Op) : Turns w.store (w.perform op).store := by
  rcases perform_cases w op with h | ⟨sop, h⟩ | h
  · exact h.turns
  · exact (Turn.perform sop).turns.tail (.alike h)
  · exact (Turn.reshape h).turns

end World
end SharedWorld
