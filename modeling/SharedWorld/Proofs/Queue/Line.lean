import SharedWorld.Proofs.Queue.Shards

/-! The line of a client: its entries that a worker has in hand or is still to take, in order. All are
in one shard, so a step of any worker takes the first of a line or leaves the line alone. -/
namespace SharedWorld.Queue
variable {α σ : Type} {q : Queue α}

/-- Only a stopped queue has lost workers, those have nothing in hand, and each entry is in the shard of
its endpoint. -/
structure Orderly (q : Queue α) : Prop where
  workers : 0 < q.workers
  ended : ∀ i, (q.shard i).ended → q.stopped ∧ q.held i = []
  homed : ∀ i e, e ∈ q.held i ++ q.waiting i → q.shardOf e.endpoint = i

def line (q : Queue α) (endpoint : Endpoint) : List (QueueEntry α) :=
  (q.held (q.shardOf endpoint) ++ q.waiting (q.shardOf endpoint)).filter (·.endpoint = endpoint)

theorem start_orderly (kind : PacketKind) (config : QueueConfig) :
    (start kind config : Queue α).Orderly where
  workers := by
    rw [start_workers]
    omega
  ended i h := by
    rw [start_shard] at h
    cases h
  homed i e h := by
    unfold held waiting at h
    rw [start_shard] at h
    cases h

theorem start_line (kind : PacketKind) (config : QueueConfig) (endpoint : Endpoint) :
    (start kind config : Queue α).line endpoint = [] := by
  unfold line held waiting
  rw [start_shard]
  rfl

/-- No worker has anything left to do. -/
def Idle (q : Queue α) : Prop := ∀ i, q.held i = [] ∧ ¬ q.isReady i

theorem idle_iff : q.Idle ↔ ∀ i < q.workers, q.held i = [] ∧ ¬ q.isReady i := by
  refine ⟨fun idle i _ => idle i, fun idle i => ?_⟩
  by_cases there : i < q.workers
  · exact idle i there
  · have none := shard_of_workers_le (Nat.le_of_not_lt there)
    rw [isReady_iff]
    unfold held waiting
    rw [none]
    exact ⟨rfl, fun ready => ready.2 rfl⟩

instance (q : Queue α) : Decidable q.Idle := decidable_of_iff' _ idle_iff

theorem line_of_idle (ok : q.Orderly) (running : ¬ q.stopped) (idle : q.Idle)
    (endpoint : Endpoint) : q.line endpoint = [] := by
  obtain ⟨held, unready⟩ := idle (q.shardOf endpoint)
  have working : ¬ (q.shard (q.shardOf endpoint)).ended := fun h => running (ok.ended _ h).1
  rw [isReady_iff, not_and, ne_eq, Decidable.not_not] at unready
  unfold line
  rw [held, unready working]
  rfl

section ModifyShard
variable {i : Nat} {f : Shard α → Shard α}

theorem shardOf_modifyShard (q : Queue α) (i : Nat) (f : Shard α → Shard α) (endpoint : Endpoint) :
    (q.modifyShard i f).shardOf endpoint = q.shardOf endpoint := by
  unfold shardOf
  rw [workers_modifyShard]

theorem Orderly.modifyShard (ok : q.Orderly)
    (ended : (f (q.shard i)).ended → q.stopped ∧ (f (q.shard i)).batch = [])
    (homed : ∀ e, e ∈ (f (q.shard i)).batch ++ (f (q.shard i)).waiting → q.shardOf e.endpoint = i) :
    (q.modifyShard i f).Orderly where
  workers := by
    rw [workers_modifyShard]
    exact ok.workers
  ended j h := by
    unfold held
    rw [shard_modifyShard] at h ⊢
    split at h
    · next hj =>
      rw [if_pos hj]
      exact ended h
    · next hj =>
      rw [if_neg hj]
      exact ok.ended j h
  homed j e h := by
    rw [shardOf_modifyShard]
    unfold held waiting at h
    rw [shard_modifyShard] at h
    split at h
    · next hj =>
      rw [hj.1]
      exact homed e h
    · exact ok.homed j e h

theorem line_modifyShard (q : Queue α) (h : i < q.workers) (endpoint : Endpoint) :
    (q.modifyShard i f).line endpoint = if q.shardOf endpoint = i
      then ((f (q.shard i)).batch ++ (f (q.shard i)).waiting).filter (·.endpoint = endpoint)
      else q.line endpoint := by
  unfold line held waiting
  rw [shardOf_modifyShard, shard_modifyShard]
  by_cases hi : q.shardOf endpoint = i
  · rw [if_pos hi, if_pos ⟨hi, h⟩]
  · rw [if_neg hi, if_neg fun hj => hi hj.1]

theorem line_modifyShard_same (keeps : (f (q.shard i)).batch ++ (f (q.shard i)).waiting =
    (q.shard i).batch ++ (q.shard i).waiting) (endpoint : Endpoint) :
    (q.modifyShard i f).line endpoint = q.line endpoint := by
  by_cases h : i < q.workers
  · rw [line_modifyShard q h]
    split
    · next hi =>
      rw [keeps, ← hi]
      rfl
    · rfl
  · rw [modifyShard_of_workers_le (Nat.le_of_not_lt h)]

end ModifyShard

/-- Nothing new comes into a line; only a stopped queue loses any of it. -/
structure Shed (q q' : Queue α) : Prop where
  orderly : q'.Orderly
  sequence : q'.sequence = q.sequence
  stopped : q.stopped → q'.stopped
  line : ∀ endpoint, List.Sublist (q'.line endpoint) (q.line endpoint)
  kept : ¬ q'.stopped → ∀ endpoint, q'.line endpoint = q.line endpoint

/-- An entry gets the next number and the last place in its line. -/
structure Grown (q q' : Queue α) (e : QueueEntry α) : Prop where
  orderly : q'.Orderly
  running : ¬ q.stopped
  stopped : q'.stopped = q.stopped
  number : e.sequence = q.sequence
  sequence : q'.sequence = q.sequence + 1
  line : ∀ endpoint, q'.line endpoint = q.line endpoint ++ [e].filter (·.endpoint = endpoint)

/-- An entry was the first in its line and is dealt with. -/
structure Passed (q q' : Queue α) (e : QueueEntry α) : Prop where
  orderly : q'.Orderly
  running : ¬ q.stopped
  sequence : q'.sequence = q.sequence
  line : ∀ endpoint, q.line endpoint = [e].filter (·.endpoint = endpoint) ++ q'.line endpoint

theorem Shed.refl (ok : q.Orderly) : Shed q q :=
  ⟨ok, rfl, id, fun _ => List.Sublist.refl _, fun _ _ => rfl⟩

theorem Orderly.congr {q' : Queue α} (ok : q.Orderly) (shards : q'.shards = q.shards)
    (stopped : q.stopped → q'.stopped) : q'.Orderly := by
  have shard (i) : q'.shard i = q.shard i := by
    unfold Queue.shard
    rw [shards]
  have workers : q'.workers = q.workers := congrArg List.length shards
  refine ⟨workers ▸ ok.workers, fun i h => ?_, fun i e h => ?_⟩
  · unfold held
    rw [shard] at h ⊢
    exact ⟨stopped (ok.ended i h).1, (ok.ended i h).2⟩
  · unfold held waiting at h
    rw [shard] at h
    unfold shardOf
    rw [workers]
    exact ok.homed i e h

theorem line_congr {q' : Queue α} (shards : q'.shards = q.shards) (endpoint : Endpoint) :
    q'.line endpoint = q.line endpoint := by
  unfold line held waiting shardOf shard workers
  rw [shards]

theorem stop_shed (ok : q.Orderly) : Shed q q.stop where
  orderly := ok.congr rfl fun _ => rfl
  sequence := rfl
  stopped _ := rfl
  line _ := List.Sublist.refl _
  kept _ _ := rfl

theorem take_shed (ok : q.Orderly) (i : Nat) : Shed q (q.take i) := by
  have keeps (s : Shard α) : (s.refill (max q.config.batch 1)).batch ++
      (s.refill (max q.config.batch 1)).waiting = s.batch ++ s.waiting := by
    unfold Shard.refill
    split
    · rfl
    · next idle =>
      rw [not_or, ne_eq, Decidable.not_not] at idle
      simp [idle.2]
  have same := line_modifyShard_same (keeps (q.shard i))
  refine ⟨ok.modifyShard (fun h => ?_) (fun e h => ?_), rfl, id, fun e => ?_, fun _ e => same e⟩
  · rw [refill_ended] at h
    rw [refill_of_ended h]
    exact ok.ended i h
  · rw [keeps] at h
    exact ok.homed i e h
  · have kept : (q.take i).line e = q.line e := same e
    exact kept ▸ List.Sublist.refl _

theorem not_in_line {e : QueueEntry α} {endpoint : Endpoint}
    (h : q.shardOf endpoint ≠ q.shardOf e.endpoint) : [e].filter (·.endpoint = endpoint) = [] := by
  have other : e.endpoint ≠ endpoint := fun he => h (he ▸ rfl)
  simp [other]

theorem enqueue_change (ok : q.Orderly) (endpoint : Endpoint) (item : α) :
    (∃ err, (q.enqueue endpoint item).1 = .error err ∧ Shed q (q.enqueue endpoint item).2) ∨
      ((q.enqueue endpoint item).1 = .ok q.sequence ∧
        Grown q (q.enqueue endpoint item).2 ⟨endpoint, item, q.sequence⟩) := by
  rcases enqueue_cases q endpoint item with ⟨_, he⟩ | ⟨_, he⟩ | ⟨running, he⟩
  · rw [he]
    exact .inl ⟨_, rfl, .refl ok⟩
  · rw [he]
    refine .inl ⟨_, rfl, ok.congr rfl id, rfl, id, fun e => ?_, fun _ e => line_congr rfl e⟩
    exact (line_congr rfl e) ▸ List.Sublist.refl _
  · rw [he]
    have working (i) : ¬ (q.shard i).ended := fun h => running (ok.ended i h).1
    refine .inr ⟨rfl, ?_, running, rfl, rfl, rfl, fun e => ?_⟩
    · refine Orderly.congr (ok.modifyShard (fun h => absurd h (working _)) fun e h => ?_) rfl id
      rw [← List.append_assoc, List.mem_append, List.mem_singleton] at h
      rcases h with h | rfl
      · exact ok.homed _ e h
      · rfl
    · refine (line_congr (q := q.modifyShard (q.shardOf endpoint) fun s =>
        { s with waiting := s.waiting ++ [⟨endpoint, item, q.sequence⟩] }) rfl e).trans ?_
      rw [line_modifyShard q (shardOf_lt ok.workers endpoint)]
      split
      · next hi =>
        rw [← List.append_assoc, List.filter_append, ← hi]
        rfl
      · next hi => rw [not_in_line hi, List.append_nil]

theorem serve_change (ok : q.Orderly) (handle : Handler α σ) (i : Nat) (s : σ) :
    (Shed q (q.serve handle i s).1 ∧ (q.serve handle i s).2 = s) ∨
      ∃ e, Passed q (q.serve handle i s).1 e ∧ (q.serve handle i s).2 = (handle e s).2 := by
  rcases serve_cases handle i q s with ⟨_, hs⟩ | ⟨e, rest, held, stop⟩
  · rw [hs]
    exact .inl ⟨.refl ok, rfl⟩
  have inside : i < q.workers := lt_workers_of_held (by simp [held])
  rcases stop with ⟨stopped, hs⟩ | ⟨running, hs⟩
  · rw [hs]
    refine .inl ⟨⟨?_, rfl, id, fun endpoint => ?_, fun h => absurd stopped h⟩, rfl⟩
    · refine Orderly.congr (ok.modifyShard (fun _ => ⟨stopped, rfl⟩) fun e h => ?_) rfl id
      exact ok.homed i e (List.mem_append_right _ h)
    · rw [line_congr (show (q.abandon i).shards = (q.modifyShard i _).shards from rfl),
        line_modifyShard q inside]
      split
      · next hi =>
        unfold line
        rw [hi]
        exact (List.sublist_append_right (q.held i) (q.waiting i)).filter _
      · exact List.Sublist.refl _
  · rw [hs]
    obtain ⟨handled, failed, hset, _⟩ := settle_eq
      (q.modifyShard i fun s => { s with batch := rest }) (handle e s).1
    have working : ¬ (q.shard i).ended := fun h => running (ok.ended i h).1
    have home : q.shardOf e.endpoint = i := ok.homed i e (by simp [held])
    refine .inr ⟨e, ⟨?_, running, ?_, fun endpoint => ?_⟩, rfl⟩
    · rw [hset]
      refine Orderly.congr (ok.modifyShard (fun h => absurd h working) fun e' h => ?_) rfl ?_
      · refine ok.homed i e' ?_
        rw [held]
        exact List.mem_cons_of_mem e h
      · exact fun h => absurd h running
    · rw [hset]
      rfl
    · have shards := congrArg Queue.shards hset
      have shrunk := line_congr (q := q.modifyShard i fun s => { s with batch := rest }) shards endpoint
      dsimp only
      rw [shrunk, line_modifyShard q inside]
      split
      · next hi =>
        unfold line
        rw [hi, held, ← List.filter_append]
        rfl
      · next hi =>
        rw [← home] at hi
        rw [not_in_line hi, List.nil_append]

theorem enqueue_orderly (ok : q.Orderly) (endpoint : Endpoint) (item : α) :
    (q.enqueue endpoint item).2.Orderly := by
  rcases enqueue_change ok endpoint item with ⟨_, _, h⟩ | ⟨_, h⟩ <;> exact h.orderly

theorem serve_orderly (ok : q.Orderly) (handle : Handler α σ) (i : Nat) (s : σ) :
    (q.serve handle i s).1.Orderly := by
  rcases serve_change ok handle i s with ⟨h, _⟩ | ⟨_, h, _⟩ <;> exact h.orderly

end SharedWorld.Queue
