import Mathlib.Logic.Relation
import SharedWorld.Dispatcher
import SharedWorld.Proofs.Queue.Line
import SharedWorld.Proofs.Table

/-! A dispatcher at work, stroke by stroke. Whatever the workers do in a turn, a pass or a whole run
comes to a chain of strokes, so what every stroke keeps holds at the end of it; in particular, what
holds from before an entry is handled to after it, and can be chained, holds from the beginning of a
run to its end. -/
namespace SharedWorld
variable {η α σ : Type}

namespace Queue
variable {R : σ → σ → Prop} {handle : Handler α σ}

theorem serve_lifts (refl : ∀ s, R s s) (entry : ∀ e s, R s (handle e s).2) (shard : Nat)
    (q : Queue α) (s : σ) : R s (q.serve handle shard s).2 := by
  unfold serve
  split
  · exact refl s
  · next e _ _ =>
    split
    · exact refl s
    · exact entry e s

end Queue

namespace Dispatcher
variable {d : Dispatcher η α} {s : σ} {kind : PacketKind} {b : Binding η α}

theorem setQueue_bindings (bound : d.bindings.find? kind = some b) (queue : Queue α)
    (k : PacketKind) : (d.setQueue kind queue).bindings.find? k =
      if k = kind then some { b with queue } else d.bindings.find? k := by
  unfold setQueue
  rw [Table.find?_modify_eq]
  split
  · next hk =>
    rw [hk, bound]
    rfl
  · rfl

theorem setQueue_setQueue (d : Dispatcher η α) (kind : PacketKind) (queue queue' : Queue α) :
    (d.setQueue kind queue).setQueue kind queue' = d.setQueue kind queue' := by
  unfold setQueue
  rw [Table.modify_modify]
  rfl

/-- What is done at one go: the line of workers moves, the guest does its errand, a worker takes a
batch or deals with an entry of it. -/
inductive Stroke (handle : η → Handler α σ) (errand : σ → σ) :
    Dispatcher η α × σ → Dispatcher η α × σ → Prop
  | rota {d : Dispatcher η α} {s : σ} (rota : Rota Worker) :
      Stroke handle errand (d, s) ({ d with rota }, s)
  | errand {d : Dispatcher η α} {s : σ} : Stroke handle errand (d, s) (d, errand s)
  | take {d : Dispatcher η α} {s : σ} {kind : PacketKind} {b : Binding η α}
      (bound : d.bindings.find? kind = some b) (shard : Nat) :
      Stroke handle errand (d, s) (d.setQueue kind (b.queue.take shard), s)
  | serve {d : Dispatcher η α} {s : σ} {kind : PacketKind} {b : Binding η α}
      (bound : d.bindings.find? kind = some b) (shard : Nat) :
      Stroke handle errand (d, s)
        (d.setQueue kind (b.queue.serve (handle b.handler) shard s).1,
          (b.queue.serve (handle b.handler) shard s).2)

abbrev Strokes (handle : η → Handler α σ) (errand : σ → σ) :
    Dispatcher η α × σ → Dispatcher η α × σ → Prop := Relation.ReflTransGen (Stroke handle errand)

variable {handle : η → Handler α σ} {errand : σ → σ}

theorem work_strokes (bound : d.bindings.find? kind = some b) (shard n : Nat) (q : Queue α) (s : σ) :
    Strokes handle errand (d.setQueue kind q, s)
      (d.setQueue kind (Queue.work (handle b.handler) shard n q s).1,
        (Queue.work (handle b.handler) shard n q s).2) := by
  induction n generalizing q s with
  | zero => exact .refl
  | succ n ih =>
    have found := (setQueue_bindings bound q kind).trans (if_pos rfl)
    have first : Stroke handle errand (d.setQueue kind q, s) _ := .serve found shard
    rw [setQueue_setQueue] at first
    exact (ih _ _).head first

theorem turn_strokes (w : Worker) (d : Dispatcher η α) (s : σ) :
    Strokes handle errand (d, s) (turn handle errand w d s) := by
  cases w with
  | guest => exact .single .errand
  | shard kind number =>
    unfold turn
    dsimp only
    split
    · exact .refl
    · next b bound => exact (work_strokes bound number _ _ s).head (.take bound number)

theorem turns_strokes (ws : List Worker) (x : Dispatcher η α × σ) :
    Strokes handle errand x (ws.foldl (fun x w => turn handle errand w x.1 x.2) x) := by
  induction ws generalizing x with
  | nil => exact .refl
  | cons w ws ih => exact (turn_strokes w x.1 x.2).trans (ih _)

theorem pass_strokes (d : Dispatcher η α) (s : σ) :
    Strokes handle errand (d, s) (pass handle errand d s).2 :=
  (turns_strokes _ ({ d with rota := _ }, s)).head (.rota _)

theorem passes_strokes (n idle : Nat) (d : Dispatcher η α) (s : σ) :
    Strokes handle errand (d, s) (passes handle errand n idle d s) := by
  induction n generalizing idle d s with
  | zero => exact .refl
  | succ n ih =>
    unfold passes
    split
    · exact .refl
    · exact (pass_strokes d s).trans (ih ..)

theorem settle_strokes (d : Dispatcher η α) (s : σ) :
    Strokes handle errand (d, s) (settle handle errand d s) := passes_strokes ..

theorem run_strokes (d : Dispatcher η α) (s : σ) : Strokes handle id (d, s) (run handle d s) :=
  settle_strokes d s

theorem Strokes.of_idle {x y : Dispatcher η α × σ} (h : Strokes handle id x y) :
    Strokes handle errand x y := by
  induction h with
  | refl => exact .refl
  | tail _ stroke ih =>
    cases stroke with
    | rota rota => exact ih.tail (.rota rota)
    | errand => exact ih
    | take bound shard => exact ih.tail (.take bound shard)
    | serve bound shard => exact ih.tail (.serve bound shard)

theorem runWithGuest_strokes (d : Dispatcher η α) (s : σ) :
    Strokes handle errand (d, s) (runWithGuest handle errand d s) := by
  have settled : Strokes handle errand (d, s)
      (settle handle errand { d with rota := d.rota.wake .guest } s) :=
    (settle_strokes _ s).head (.rota _)
  have leave (d : Dispatcher η α) (s : σ) : Strokes handle errand (d, s)
      (pass handle id { d with rota := d.rota.wake .guest } s).2 :=
    (Strokes.of_idle (pass_strokes _ s)).head (.rota _)
  exact settled.trans (leave _ _)

/-- The bindings are as before, but for one kind. -/
def Rebound (d d' : Dispatcher η α) (kind : PacketKind) (b : Binding η α) : Prop :=
  ∀ k, d'.bindings.find? k = if k = kind then some b else d.bindings.find? k

def Orderly (d : Dispatcher η α) : Prop := ∀ kind b, d.bindings.find? kind = some b → b.queue.Orderly

/-- A stroke leaves the bindings alone, has a queue lose something of its lines at most, or passes
the first entry of a line to its handler. -/
inductive Stir (handle : η → Handler α σ) (errand : σ → σ) (x y : Dispatcher η α × σ) : Prop
  | aside (bindings : y.1.bindings = x.1.bindings) (state : y.2 = x.2)
  | errand (bindings : y.1.bindings = x.1.bindings) (state : y.2 = errand x.2)
  | shed {kind : PacketKind} {b : Binding η α} {q : Queue α}
      (bound : x.1.bindings.find? kind = some b) (change : Queue.Shed b.queue q)
      (rebound : x.1.Rebound y.1 kind { b with queue := q }) (state : y.2 = x.2)
  | passed {kind : PacketKind} {b : Binding η α} {q : Queue α} {e : QueueEntry α}
      (bound : x.1.bindings.find? kind = some b) (change : Queue.Passed b.queue q e)
      (rebound : x.1.Rebound y.1 kind { b with queue := q })
      (state : y.2 = (handle b.handler e x.2).2)

theorem Stroke.stir {x y : Dispatcher η α × σ} (h : Stroke handle errand x y) (ok : x.1.Orderly) :
    Stir handle errand x y := by
  cases h with
  | rota => exact .aside rfl rfl
  | errand => exact .errand rfl rfl
  | @take d s kind b bound shard =>
    exact .shed bound (Queue.take_shed (ok kind b bound) shard) (setQueue_bindings bound _) rfl
  | @serve d s kind b bound shard =>
    rcases Queue.serve_change (ok kind b bound) (handle b.handler) shard s with
      ⟨change, same⟩ | ⟨e, change, same⟩
    · exact .shed bound change (setQueue_bindings bound _) same
    · exact .passed bound change (setQueue_bindings bound _) same

theorem Rebound.find {d' : Dispatcher η α} {k : PacketKind} {new found : Binding η α}
    (rebound : d.Rebound d' kind new) (bound : d'.bindings.find? k = some found) :
    (k = kind ∧ found = new) ∨ (k ≠ kind ∧ d.bindings.find? k = some found) := by
  rw [rebound] at bound
  split at bound
  · next here => exact .inl ⟨here, (Option.some.inj bound).symm⟩
  · next other => exact .inr ⟨other, bound⟩

theorem Orderly.rebound {d' : Dispatcher η α} {new : Binding η α} (ok : d.Orderly)
    (rebound : d.Rebound d' kind new) (orderly : new.queue.Orderly) : d'.Orderly := by
  intro k found bound
  rcases rebound.find bound with ⟨_, rfl⟩ | ⟨_, bound⟩
  · exact orderly
  · exact ok k found bound

theorem Stir.orderly {x y : Dispatcher η α × σ} (h : Stir handle errand x y) (ok : x.1.Orderly) :
    y.1.Orderly := by
  cases h with
  | aside bindings | errand bindings =>
    intro k found bound
    exact ok k found (bindings ▸ bound)
  | shed _ change rebound => exact ok.rebound rebound change.orderly
  | passed _ change rebound => exact ok.rebound rebound change.orderly

theorem Strokes.keep {P : Dispatcher η α → σ → Prop} {x y : Dispatcher η α × σ}
    (h : Strokes handle errand x y) (ok : x.1.Orderly)
    (stir : ∀ {x y}, x.1.Orderly → Stir handle errand x y → P x.1 x.2 → P y.1 y.2)
    (start : P x.1 x.2) : y.1.Orderly ∧ P y.1 y.2 := by
  induction h with
  | refl => exact ⟨ok, start⟩
  | tail _ stroke ih =>
    have step := stroke.stir ih.1
    exact ⟨step.orderly ih.1, stir ih.1 step ih.2⟩

theorem Strokes.lift {x y : Dispatcher η α × σ} (h : Strokes handle errand x y)
    {R : σ → σ → Prop} (refl : ∀ s, R s s) (trans : ∀ {s t u}, R s t → R t u → R s u)
    (entry : ∀ h e s, R s (handle h e s).2) (guest : ∀ s, R s (errand s)) : R x.2 y.2 := by
  induction h with
  | refl => exact refl x.2
  | tail _ stroke ih =>
    refine trans ih ?_
    cases stroke with
    | rota | take => exact refl _
    | errand => exact guest _
    | @serve d s kind b bound shard =>
      exact Queue.serve_lifts refl (entry b.handler) shard b.queue s

end Dispatcher
end SharedWorld
