import SharedWorld.Proofs.Queue.Accounts

/-! How many entries can wait. The capacity is divided over the shards and each part is rounded up, so
the parts may come to more than the whole. -/
namespace SharedWorld

namespace QueueConfig

def shards (config : QueueConfig) : Nat := max config.workers 1

def limit (config : QueueConfig) : Nat := max config.capacity 1

def share (config : QueueConfig) : Nat := (config.limit + config.shards - 1) / config.shards

/-- How many entries all shards take. -/
def room (config : QueueConfig) : Nat := config.shards * config.share

variable (config : QueueConfig)

theorem shards_pos : 0 < config.shards := Nat.le_max_right ..

theorem limit_le_room : config.limit ≤ config.room := by
  have exact : config.shards * config.share + (config.limit + config.shards - 1) % config.shards =
      config.limit + config.shards - 1 := Nat.div_add_mod ..
  have rest := Nat.mod_lt (config.limit + config.shards - 1) config.shards_pos
  unfold room
  omega

theorem room_lt : config.room < config.limit + config.shards := by
  have exact : config.shards * config.share ≤ config.limit + config.shards - 1 :=
    Nat.mul_div_le ..
  have some := config.shards_pos
  unfold room
  omega

theorem room_eq_limit_iff : config.room = config.limit ↔ config.shards ∣ config.limit := by
  constructor
  · intro h
    exact ⟨config.share, h.symm⟩
  · rintro ⟨parts, h⟩
    have some := config.shards_pos
    have share : config.share = parts := by
      unfold share
      rw [h, Nat.div_eq_iff some, Nat.mul_comm]
      omega
    unfold room
    rw [share, h]

end QueueConfig

namespace Queue
variable {α σ : Type} {q : Queue α} {config : QueueConfig}

/-- The queue has the shards that it began with, and none of them holds more than its share. -/
structure Within (config : QueueConfig) (q : Queue α) : Prop where
  kept : q.config = config
  workers : q.workers = config.shards
  share : ∀ i, (q.waiting i).length ≤ config.share

theorem start_within (kind : PacketKind) (config : QueueConfig) :
    (start kind config : Queue α).Within config where
  kept := rfl
  workers := start_workers kind config
  share i := by
    unfold waiting
    rw [start_shard]
    exact Nat.zero_le _

theorem Within.shardCapacity (h : q.Within config) : q.shardCapacity = config.share := by
  unfold Queue.shardCapacity QueueConfig.share QueueConfig.limit
  rw [h.kept, h.workers]

theorem Within.congr (h : q.Within config) {q' : Queue α} (kept : q'.config = q.config)
    (shards : q'.shards = q.shards) : q'.Within config where
  kept := kept.trans h.kept
  workers := (congrArg List.length shards).trans h.workers
  share i := by
    unfold waiting shard
    rw [shards]
    exact h.share i

theorem waiting_modifyShard (q : Queue α) (i j : Nat) (f : Shard α → Shard α) :
    (q.modifyShard i f).waiting j =
      if j = i ∧ i < q.workers then (f (q.shard i)).waiting else q.waiting j := by
  unfold waiting
  rw [shard_modifyShard]
  split <;> rfl

theorem Within.modifyShard (h : q.Within config) {i : Nat} {f : Shard α → Shard α}
    (share : (f (q.shard i)).waiting.length ≤ config.share) :
    (q.modifyShard i f).Within config where
  kept := h.kept
  workers := (workers_modifyShard q i f).trans h.workers
  share j := by
    rw [waiting_modifyShard]
    split
    · exact share
    · exact h.share j

theorem enqueue_room (q : Queue α) (endpoint : Endpoint) (item : α) :
    (∃ err, (q.enqueue endpoint item).1 = .error err ∧
      (q.stopped ∨ q.shardCapacity ≤ (q.waiting (q.shardOf endpoint)).length) ∧
      (q.enqueue endpoint item).2.config = q.config ∧
      (q.enqueue endpoint item).2.shards = q.shards) ∨
    ((q.waiting (q.shardOf endpoint)).length < q.shardCapacity ∧
      (q.enqueue endpoint item).2 = { q.modifyShard (q.shardOf endpoint) fun s =>
          { s with waiting := s.waiting ++ [⟨endpoint, item, q.sequence⟩] } with
        sequence := q.sequence + 1, enqueued := q.enqueued + 1 }) := by
  unfold enqueue
  split
  · next stopped => exact .inl ⟨_, rfl, .inl stopped, rfl, rfl⟩
  · dsimp only
    split
    · next full => exact .inl ⟨_, rfl, .inr full, rfl, rfl⟩
    · next room => exact .inr ⟨Nat.lt_of_not_le room, rfl⟩

theorem Within.enqueue (h : q.Within config) (endpoint : Endpoint) (item : α) :
    (q.enqueue endpoint item).2.Within config := by
  rcases enqueue_room q endpoint item with ⟨_, _, _, kept, shards⟩ | ⟨room, taken⟩
  · exact h.congr kept shards
  · rw [taken]
    rw [h.shardCapacity] at room
    refine (h.modifyShard (i := q.shardOf endpoint) (f := fun s =>
      { s with waiting := s.waiting ++ [⟨endpoint, item, q.sequence⟩] }) ?_).congr rfl rfl
    rw [List.length_append]
    exact room

theorem Within.take (h : q.Within config) (i : Nat) : (q.take i).Within config := by
  refine h.modifyShard (Nat.le_trans ?_ (h.share i))
  unfold Shard.refill
  split
  · exact Nat.le_refl _
  · rw [List.length_drop]
    exact Nat.sub_le _ _

theorem Within.serve (h : q.Within config) (handle : Handler α σ) (i : Nat) (s : σ) :
    (q.serve handle i s).1.Within config := by
  rcases serve_cases handle i q s with ⟨_, hs⟩ | ⟨e, rest, _, ⟨_, hs⟩ | ⟨_, hs⟩⟩
  · rw [hs]
    exact h
  · rw [hs]
    exact (h.modifyShard (f := fun s => { s with batch := [], ended := true }) (h.share i)).congr rfl rfl
  · rw [hs]
    obtain ⟨handled, failed, settled, _⟩ :=
      settle_eq (q.modifyShard i fun s => { s with batch := rest }) (handle e s).1
    rw [settled]
    exact (h.modifyShard (f := fun s => { s with batch := rest }) (h.share i)).congr rfl rfl

theorem tally_le {weight : Shard α → Nat} {n : Nat} {shards : List (Shard α)}
    (h : ∀ s ∈ shards, weight s ≤ n) : tally weight shards ≤ shards.length * n := by
  induction shards with
  | nil => exact Nat.zero_le _
  | cons s shards ih =>
    have first := h s List.mem_cons_self
    have others := ih fun s hs => h s (List.mem_cons_of_mem _ hs)
    rw [List.length_cons, Nat.succ_mul]
    unfold tally
    omega

theorem tally_eq {weight : Shard α → Nat} {n : Nat} {shards : List (Shard α)}
    (h : ∀ s ∈ shards, weight s = n) : tally weight shards = shards.length * n := by
  induction shards with
  | nil => exact (Nat.zero_mul n).symm
  | cons s shards ih =>
    have others := ih fun s hs => h s (List.mem_cons_of_mem _ hs)
    rw [List.length_cons, Nat.succ_mul, ← others, ← h s List.mem_cons_self, Nat.add_comm]
    rfl

theorem exists_waiting {s : Shard α} (h : s ∈ q.shards) :
    ∃ i < q.workers, q.waiting i = s.waiting := by
  obtain ⟨i, hi, rfl⟩ := List.getElem_of_mem h
  exact ⟨i, hi, by simp [waiting, shard, hi]⟩

theorem Within.pending_le (h : q.Within config) : q.pending ≤ config.room := by
  rw [pending_eq_tally, QueueConfig.room, ← h.workers]
  refine tally_le fun s hs => ?_
  obtain ⟨i, _, same⟩ := exists_waiting hs
  exact same ▸ h.share i

end Queue

namespace Ledger
variable {α σ : Type} {handle : Handler α σ} {l : Ledger α σ} {config : QueueConfig}

theorem step_within (handle : Handler α σ) (h : l.queue.Within config) (event : Queue.Event α) :
    (l.step handle event).queue.Within config := by
  cases event with
  | enqueue endpoint item =>
    have offered := h.enqueue endpoint item
    unfold step
    dsimp only
    split <;>
    · next he =>
      rw [he] at offered
      exact offered
  | stop => exact h.congr rfl rfl
  | take i => exact h.take i
  | serve i => exact h.serve handle i l.state

theorem run_within (h : l.queue.Within config) (events : List (Queue.Event α)) :
    (l.run handle events).queue.Within config := by
  induction events generalizing l with
  | nil => exact h
  | cons event events ih => exact ih (step_within handle h event)

theorem run_append (handle : Handler α σ) (l : Ledger α σ) (events events' : List (Queue.Event α)) :
    l.run handle (events ++ events') = (l.run handle events).run handle events' :=
  List.foldl_append

/-- The queue runs, and so many entries wait in each shard. -/
structure Filled (config : QueueConfig) (l : Ledger α σ) (level : Nat → Nat) : Prop where
  within : l.queue.Within config
  running : ¬ l.queue.stopped
  waiting : ∀ i, (l.queue.waiting i).length = level i

theorem Filled.congr {level level' : Nat → Nat} (h : l.Filled config level)
    (same : ∀ i, level i = level' i) : l.Filled config level' :=
  ⟨h.within, h.running, fun i => (h.waiting i).trans (same i)⟩

section Filling
variable [Inhabited α]

def offer (i : Nat) : Queue.Event α := .enqueue ⟨.ofNat i⟩ default

/-- Each shard in turn is offered all that it takes, from an endpoint that is at home there. -/
def filling (config : QueueConfig) (shards : Nat) : List (Queue.Event α) :=
  (List.range shards).flatMap fun i => List.replicate config.share (offer i)

theorem Filled.grow (handle : Handler α σ) {level : Nat → Nat} {i : Nat}
    (h : l.Filled config level) (there : i < config.shards) (few : config.workers ≤ UInt64.size)
    (room : level i < config.share) :
    (l.step handle (offer i)).Filled config fun j => if j = i then level j + 1 else level j := by
  have small : i < UInt64.size := Nat.lt_of_lt_of_le there (Nat.max_le.mpr ⟨few, by decide⟩)
  have home : l.queue.shardOf ⟨.ofNat i⟩ = i := by
    unfold Queue.shardOf
    rw [h.within.workers, UInt64.toNat_ofNat_of_lt' small, Nat.mod_eq_of_lt there]
  have within := step_within handle h.within (offer i)
  rcases Queue.enqueue_room l.queue ⟨.ofNat i⟩ default with ⟨_, _, full, _⟩ | ⟨_, taken⟩
  · rw [home, h.waiting, h.within.shardCapacity] at full
    exact absurd full (not_or.mpr ⟨h.running, Nat.not_le_of_lt room⟩)
  · have after : (l.step handle (offer i)).queue = (l.queue.enqueue ⟨.ofNat i⟩ default).2 := by
      unfold step offer
      dsimp only
      split <;> next he => rw [he]
    refine ⟨within, ?_, fun j => ?_⟩
    · rw [after, taken]
      exact h.running
    · have grown := Queue.waiting_modifyShard l.queue i j fun s =>
        { s with waiting := s.waiting ++ [⟨⟨.ofNat i⟩, default, l.queue.sequence⟩] }
      rw [after, taken, home]
      rw [← h.within.workers] at there
      refine (congrArg List.length grown).trans ?_
      by_cases same : j = i
      · rw [if_pos ⟨same, there⟩, if_pos same, List.length_append, same, ← h.waiting i]
        rfl
      · rw [if_neg fun both => same both.1, if_neg same, h.waiting]

theorem Filled.grows (handle : Handler α σ) {level : Nat → Nat} {n i : Nat}
    (h : l.Filled config level) (there : i < config.shards) (few : config.workers ≤ UInt64.size)
    (room : level i + n ≤ config.share) :
    (l.run handle (List.replicate n (offer i))).Filled config
      fun j => if j = i then level j + n else level j := by
  induction n generalizing l level with
  | zero => exact h.congr fun j => (ite_self (level j)).symm
  | succ n ih =>
    have next := h.grow handle there few (by omega)
    refine (ih next (by rw [if_pos rfl]; omega)).congr fun j => ?_
    split <;> omega

theorem filling_filled (handle : Handler α σ) (kind : PacketKind) (state : σ) {shards : Nat}
    (enough : shards ≤ config.shards) (few : config.workers ≤ UInt64.size) :
    ((start kind config state : Ledger α σ).run handle (filling config shards)).Filled config
      fun j => if j < shards then config.share else 0 := by
  induction shards with
  | zero =>
    refine ⟨Queue.start_within kind config, nofun, fun i => ?_⟩
    have empty := Queue.start_shard (α := α) kind config i
    exact congrArg (·.waiting.length) empty
  | succ n ih =>
    have before := ih (Nat.le_of_succ_le enough)
    have after := before.grows handle (n := config.share) (i := n) enough few (by simp)
    unfold filling
    rw [List.range_succ, List.flatMap_append, run_append, List.flatMap_singleton]
    refine after.congr fun j => ?_
    by_cases h : j < n
    · rw [if_neg (by omega), if_pos h, if_pos (by omega)]
    · by_cases same : j = n
      · rw [if_pos same, if_neg h, if_pos (by omega), Nat.zero_add]
      · rw [if_neg same, if_neg h, if_neg (by omega)]

theorem filling_pending (handle : Handler α σ) (kind : PacketKind) (state : σ)
    (few : config.workers ≤ UInt64.size) :
    ((start kind config state : Ledger α σ).run handle
      (filling config config.shards)).queue.pending = config.room := by
  have full := filling_filled (α := α) handle kind state (Nat.le_refl config.shards) few
  rw [Queue.pending_eq_tally]
  refine (Queue.tally_eq fun s hs => ?_).trans (congrArg (· * config.share) full.within.workers)
  obtain ⟨i, hi, same⟩ := Queue.exists_waiting hs
  rw [full.within.workers] at hi
  rw [← same, full.waiting, if_pos hi]

end Filling

/-- In any order of offers, stops, batches taken and entries dealt with, no more wait than all shards
take. That is less than an entry a shard above the limit, and where there are no more shards than
endpoints it can be reached: the limit holds always if the shards divide it evenly, and only then. -/
theorem run_pending [Inhabited α] (handle : Handler α σ) (kind : PacketKind) (config : QueueConfig)
    (state : σ) :
    (∀ events, ((start kind config state : Ledger α σ).run handle events).queue.pending ≤
      config.room) ∧
    config.room < config.limit + config.shards ∧
    (config.workers ≤ UInt64.size →
      (∃ events, ((start kind config state : Ledger α σ).run handle events).queue.pending =
        config.room) ∧
      ((∀ events, ((start kind config state : Ledger α σ).run handle events).queue.pending ≤
        config.limit) ↔ config.shards ∣ config.limit)) := by
  have bounded (events) : ((start kind config state : Ledger α σ).run handle events).queue.pending ≤
      config.room := (run_within (Queue.start_within kind config) events).pending_le
  refine ⟨bounded, config.room_lt, fun few => ?_⟩
  have full := filling_pending (α := α) handle kind state few
  refine ⟨⟨_, full⟩, fun always => ?_, fun even events => ?_⟩
  · have held := always (filling config config.shards)
    rw [full] at held
    exact config.room_eq_limit_iff.mp (Nat.le_antisymm held config.limit_le_room)
  · rw [← config.room_eq_limit_iff.mpr even]
    exact bounded events

/-- Two workers share a capacity of one: each takes an entry. -/
theorem second_entry_waits :
    let l : Ledger Unit Unit := (start .playerPureSync { workers := 2, capacity := 1 } ()).run
      (fun _ s => (⟨true, false⟩, s)) [offer 0, offer 1]
    l.accepted = 2 ∧ l.full = 0 ∧ l.queue.pending = 2 := by
  decide

end Ledger
end SharedWorld
