import SharedWorld.Queue

/-! The steps of a queue, as seen from its shards. Producers, workers and those who stop the queue take
steps in any order; a turn of a worker is a batch taken and dealt with in one go. -/
namespace SharedWorld

inductive Queue.Event (α : Type)
  | enqueue (endpoint : Endpoint) (item : α)
  | stop
  | take (shard : Nat)
  | serve (shard : Nat)

namespace Queue
variable {α σ : Type} {q : Queue α} {handle : Handler α σ}

theorem shard_modifyShard (q : Queue α) (i j : Nat) (f : Shard α → Shard α) :
    (q.modifyShard i f).shard j = if j = i ∧ i < q.workers then f (q.shard i) else q.shard j := by
  unfold shard modifyShard workers
  simp only [List.getD_eq_getElem?_getD, List.getElem?_modify]
  by_cases h : i = j
  · subst h
    by_cases hi : i < q.shards.length
    · simp [hi]
    · simp [hi]
  · simp [h, Ne.symm h]

theorem modifyShard_of_workers_le {i : Nat} (h : q.workers ≤ i) (f : Shard α → Shard α) :
    q.modifyShard i f = q := by
  unfold modifyShard
  rw [List.modify_eq_self h]

theorem workers_modifyShard (q : Queue α) (i : Nat) (f : Shard α → Shard α) :
    (q.modifyShard i f).workers = q.workers := List.length_modify ..

theorem shard_of_workers_le {i : Nat} (h : q.workers ≤ i) : q.shard i = {} := by
  unfold shard
  rw [List.getD_eq_getElem?_getD, List.getElem?_eq_none h]
  rfl

theorem lt_workers_of_held {i : Nat} (h : q.held i ≠ []) : i < q.workers := by
  refine Nat.lt_of_not_le fun hi => h ?_
  unfold held
  rw [shard_of_workers_le hi]

theorem shardOf_lt (h : 0 < q.workers) (endpoint : Endpoint) : q.shardOf endpoint < q.workers :=
  Nat.mod_lt _ h

theorem start_workers (kind : PacketKind) (config : QueueConfig) :
    (start kind config : Queue α).workers = max config.workers 1 := List.length_replicate ..

theorem start_shard (kind : PacketKind) (config : QueueConfig) (i : Nat) :
    (start kind config : Queue α).shard i = {} := by
  unfold shard start
  rw [List.getD_eq_getElem?_getD, List.getElem?_replicate]
  split <;> rfl

theorem isReady_iff (q : Queue α) (i : Nat) :
    q.isReady i ↔ ¬ (q.shard i).ended ∧ q.waiting i ≠ [] := by
  unfold isReady waiting shard
  rw [List.getD_eq_getElem?_getD]
  cases q.shards[i]? <;> simp

theorem refill_ended (size : Nat) (s : Shard α) : (s.refill size).ended = s.ended := by
  unfold Shard.refill
  split <;> rfl

theorem refill_of_ended {s : Shard α} (h : s.ended) (size : Nat) : s.refill size = s :=
  if_pos (.inl h)

theorem enqueue_cases (q : Queue α) (endpoint : Endpoint) (item : α) :
    (q.stopped ∧ q.enqueue endpoint item = (.error (.stopped q.kind), q)) ∨
      (¬ q.stopped ∧ q.enqueue endpoint item =
        (.error (.queueFull q.kind), { q with dropped := q.dropped + 1 })) ∨
      (¬ q.stopped ∧ q.enqueue endpoint item = (.ok q.sequence,
        { q.modifyShard (q.shardOf endpoint) fun s =>
            { s with waiting := s.waiting ++ [⟨endpoint, item, q.sequence⟩] } with
          sequence := q.sequence + 1, enqueued := q.enqueued + 1 })) := by
  unfold enqueue
  split
  · next h => exact .inl ⟨h, rfl⟩
  · next h =>
    dsimp only
    split
    · exact .inr (.inl ⟨h, rfl⟩)
    · exact .inr (.inr ⟨h, rfl⟩)

theorem serve_cases (handle : Handler α σ) (i : Nat) (q : Queue α) (s : σ) :
    (q.held i = [] ∧ q.serve handle i s = (q, s)) ∨
      ∃ e rest, q.held i = e :: rest ∧
        ((q.stopped ∧ q.serve handle i s = (q.abandon i, s)) ∨
          (¬ q.stopped ∧ q.serve handle i s =
            ((q.modifyShard i fun s => { s with batch := rest }).settle (handle e s).1,
              (handle e s).2))) := by
  unfold serve
  split
  · next h => exact .inl ⟨h, rfl⟩
  · next e rest h =>
    refine .inr ⟨e, rest, h, ?_⟩
    split
    · next hs => exact .inl ⟨hs, rfl⟩
    · next hs => exact .inr ⟨hs, rfl⟩

theorem settle_eq (q : Queue α) (o : Outcome) : ∃ handled failed,
    q.settle o = { q with handled, failed, stopped := q.stopped || o.stops } ∧
      handled + failed = q.handled + q.failed + 1 := by
  unfold settle stop
  by_cases succeeded : o.succeeded <;> by_cases stops : o.stops
  · exact ⟨q.handled + 1, q.failed, by simp [succeeded, stops], by omega⟩
  · exact ⟨q.handled + 1, q.failed, by simp [succeeded, stops], by omega⟩
  · exact ⟨q.handled, q.failed + 1, by simp [succeeded, stops], by omega⟩
  · exact ⟨q.handled, q.failed + 1, by simp [succeeded, stops], by omega⟩

end Queue
end SharedWorld
