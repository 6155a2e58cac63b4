import SharedWorld.Proofs.Queue.Line

/-! What becomes of every entry that is offered to a queue. -/
namespace SharedWorld

/-- A queue at work, with the offers that it took and those it refused because it was full. -/
structure Ledger (α σ : Type) where
  queue : Queue α
  state : σ
  accepted : Nat := 0
  full : Nat := 0

namespace Ledger
variable {α σ : Type}

def step (handle : Handler α σ) (l : Ledger α σ) : Queue.Event α → Ledger α σ
  | .enqueue endpoint item =>
    match l.queue.enqueue endpoint item with
    | (.ok _, queue) => { l with queue, accepted := l.accepted + 1 }
    | (.error (.queueFull _), queue) => { l with queue, full := l.full + 1 }
    | (.error _, queue) => { l with queue }
  | .stop => { l with queue := l.queue.stop }
  | .take shard => { l with queue := l.queue.take shard }
  | .serve shard =>
    let (queue, state) := l.queue.serve handle shard l.state
    { l with queue, state }

def run (handle : Handler α σ) (l : Ledger α σ) (events : List (Queue.Event α)) : Ledger α σ :=
  events.foldl (step handle) l

def start (kind : PacketKind) (config : QueueConfig) (state : σ) : Ledger α σ :=
  { queue := .start kind config, state }

theorem turn_eq_run (handle : Handler α σ) (l : Ledger α σ) (shard : Nat) :
    l.run handle (.take shard :: List.replicate ((l.queue.take shard).held shard).length (.serve shard)) =
      { l with queue := (l.queue.turn handle shard l.state).1
               state := (l.queue.turn handle shard l.state).2 } := by
  have work (n : Nat) (l : Ledger α σ) : l.run handle (List.replicate n (.serve shard)) =
      { l with queue := (Queue.work handle shard n l.queue l.state).1
               state := (Queue.work handle shard n l.queue l.state).2 } := by
    induction n generalizing l with
    | zero => rfl
    | succ n ih => exact ih _
  exact work _ _

end Ledger

namespace Queue
variable {α σ : Type} {q : Queue α}

def tally (weight : Shard α → Nat) : List (Shard α) → Nat
  | [] => 0
  | s :: shards => weight s + tally weight shards

def inHand (q : Queue α) : Nat := tally (·.batch.length) q.shards

/-- Entries that wait in shards whose worker has left. -/
def stranded (q : Queue α) : Nat := tally (fun s => if s.ended then s.waiting.length else 0) q.shards

def load (s : Shard α) : Nat := (if s.ended then 0 else s.waiting.length) + s.batch.length

def unsettled (shards : List (Shard α)) : Nat := tally load shards

theorem tally_modify (weight : Shard α → Nat) (f : Shard α → Shard α) {i : Nat}
    (h : i < q.workers) :
    tally weight (q.modifyShard i f).shards + weight (q.shard i) =
      tally weight q.shards + weight (f (q.shard i)) := by
  unfold modifyShard shard
  unfold workers at h
  dsimp only
  generalize q.shards = shards at h
  induction shards generalizing i with
  | nil => simp at h
  | cons s shards ih =>
    cases i with
    | zero => simp [tally]; omega
    | succ i =>
      have := ih (Nat.lt_of_succ_lt_succ h)
      simp [tally] at this ⊢
      omega

theorem pending_eq_tally (q : Queue α) : q.pending = tally (·.waiting.length) q.shards := by
  unfold pending entries
  induction q.shards with
  | nil => rfl
  | cons s shards ih => simpa [tally] using ih

theorem pending_add_inHand (q : Queue α) : q.pending + q.inHand = unsettled q.shards + q.stranded := by
  rw [pending_eq_tally]
  unfold inHand unsettled stranded
  induction q.shards with
  | nil => rfl
  | cons s shards ih =>
    simp only [tally, load]
    split <;> omega

theorem stranded_eq_zero :
    q.stranded = 0 ↔ ∀ s, s ∈ q.shards → s.ended → s.waiting = [] := by
  unfold stranded
  induction q.shards with
  | nil => simp [tally]
  | cons s shards ih =>
    simp only [tally, Nat.add_eq_zero_iff, ih, List.forall_mem_cons]
    refine and_congr_left fun _ => ?_
    cases s.ended <;> simp

theorem load_refill (size : Nat) (s : Shard α) : load (s.refill size) = load s := by
  unfold Shard.refill
  split
  · rfl
  · next idle =>
    rw [not_or, ne_eq, Decidable.not_not] at idle
    simp only [load, idle.1, idle.2, Bool.false_eq_true, if_false, List.length_take,
      List.length_drop, List.length_nil]
    omega

theorem unsettled_take (q : Queue α) (i : Nat) : unsettled (q.take i).shards = unsettled q.shards := by
  unfold unsettled take
  by_cases h : i < q.workers
  · have moved := tally_modify load (·.refill (max q.config.batch 1)) h
    rw [load_refill] at moved
    omega
  · rw [modifyShard_of_workers_le (Nat.le_of_not_lt h)]

theorem unsettled_abandon {i : Nat} (h : q.held i ≠ []) (working : ¬ (q.shard i).ended) :
    unsettled (q.abandon i).shards + (q.held i).length + (q.waiting i).length =
      unsettled q.shards := by
  have moved := tally_modify load (fun s => { s with batch := [], ended := true })
    (lt_workers_of_held h)
  simp only [load, working, if_true, if_false, Bool.false_eq_true, List.length_nil] at moved
  unfold unsettled abandon held waiting
  dsimp only
  omega

theorem unsettled_served {i : Nat} {e : QueueEntry α} {rest : List (QueueEntry α)}
    (h : q.held i = e :: rest) :
    unsettled (q.modifyShard i fun s => { s with batch := rest }).shards + 1 =
      unsettled q.shards := by
  have moved := tally_modify load (fun s => { s with batch := rest })
    (lt_workers_of_held (h ▸ List.cons_ne_nil e rest))
  unfold held at h
  unfold unsettled
  simp only [load, h, List.length_cons] at moved ⊢
  omega

theorem unsettled_accepted {i : Nat} (h : i < q.workers) (working : ¬ (q.shard i).ended)
    (e : QueueEntry α) :
    unsettled (q.modifyShard i fun s => { s with waiting := s.waiting ++ [e] }).shards =
      unsettled q.shards + 1 := by
  have moved := tally_modify load (fun s => { s with waiting := s.waiting ++ [e] }) h
  simp only [load, working, if_false, Bool.false_eq_true, List.length_append,
    List.length_singleton] at moved
  unfold unsettled
  omega

end Queue

namespace Ledger
variable {α σ : Type} {handle : Handler α σ} {l : Ledger α σ}

/-- All that was offered and not refused for a stop is accounted for. -/
structure Balanced (l : Ledger α σ) : Prop where
  orderly : l.queue.Orderly
  books : l.accepted + l.full =
    l.queue.handled + l.queue.failed + l.queue.dropped + Queue.unsettled l.queue.shards
  enqueued : l.queue.enqueued = l.accepted

theorem start_balanced (kind : PacketKind) (config : QueueConfig) (state : σ) :
    (start kind config state : Ledger α σ).Balanced where
  orderly := Queue.start_orderly kind config
  books := by
    have none (n : Nat) : Queue.unsettled (List.replicate n ({} : Shard α)) = 0 := by
      induction n with
      | zero => rfl
      | succ n ih => simpa [List.replicate_succ, Queue.unsettled, Queue.tally, Queue.load] using ih
    show 0 = 0 + Queue.unsettled (List.replicate (max config.workers 1) ({} : Shard α))
    rw [none]
  enqueued := rfl

theorem enqueue_balanced (h : l.Balanced) (endpoint : Endpoint) (item : α) :
    (l.step handle (.enqueue endpoint item)).Balanced := by
  have orderly := Queue.enqueue_orderly h.orderly endpoint item
  obtain ⟨ok, books, enqueued⟩ := h
  rcases Queue.enqueue_cases l.queue endpoint item with ⟨_, he⟩ | ⟨_, he⟩ | ⟨running, he⟩
  · simp only [step, he]
    exact ⟨ok, books, enqueued⟩
  · rw [he] at orderly
    simp only [step, he]
    exact ⟨orderly, by dsimp only; omega, enqueued⟩
  · rw [he] at orderly
    have working : ¬ (l.queue.shard (l.queue.shardOf endpoint)).ended := fun hi =>
      running (ok.ended _ hi).1
    have grown := Queue.unsettled_accepted (Queue.shardOf_lt ok.workers endpoint) working
      ⟨endpoint, item, l.queue.sequence⟩
    simp only [step, he]
    refine ⟨orderly, ?_, congrArg (· + 1) enqueued⟩
    simp only [Queue.modifyShard] at grown ⊢
    omega

theorem serve_balanced (h : l.Balanced) (i : Nat) : (l.step handle (.serve i)).Balanced := by
  have orderly := Queue.serve_orderly h.orderly handle i l.state
  obtain ⟨ok, books, enqueued⟩ := h
  rcases Queue.serve_cases handle i l.queue l.state with
    ⟨_, hs⟩ | ⟨e, rest, held, ⟨_, hs⟩ | ⟨_, hs⟩⟩
  · simp only [step, hs]
    exact ⟨ok, books, enqueued⟩
  · rw [hs] at orderly
    have some : l.queue.held i ≠ [] := by simp [held]
    have left := Queue.unsettled_abandon some fun hi => some (ok.ended i hi).2
    simp only [step, hs]
    refine ⟨orderly, ?_, enqueued⟩
    simp only [Queue.abandon, Queue.modifyShard] at left ⊢
    omega
  · rw [hs] at orderly
    have one := Queue.unsettled_served held
    obtain ⟨handled, failed, hset, counts⟩ := Queue.settle_eq
      (l.queue.modifyShard i fun s => { s with batch := rest }) (handle e l.state).1
    simp only [step, hs]
    refine ⟨orderly, ?_, ?_⟩
    · simp only [hset]
      simp only [Queue.modifyShard] at one counts ⊢
      omega
    · simp only [hset]
      exact enqueued

theorem step_balanced (h : l.Balanced) (event : Queue.Event α) :
    (l.step handle event).Balanced := by
  cases event with
  | enqueue endpoint item => exact enqueue_balanced h endpoint item
  | stop => exact ⟨(Queue.stop_shed h.orderly).orderly, h.books, h.enqueued⟩
  | take i =>
    refine ⟨(Queue.take_shed h.orderly i).orderly, ?_, h.enqueued⟩
    simp only [step]
    rw [Queue.unsettled_take]
    exact h.books
  | serve i => exact serve_balanced h i

theorem run_balanced (h : l.Balanced) (events : List (Queue.Event α)) :
    (l.run handle events).Balanced := by
  induction events generalizing l with
  | nil => exact h
  | cons event events ih => exact ih (step_balanced h event)

/-- What a queue reports of its entries, in any order of offers, stops, batches taken and entries dealt
with. All offers but those refused for the stop are accounted for, where what workers have in hand
counts too, and what waits in a shard whose worker left at the stop counts twice, as dropped and as
pending. So with nothing in hand the report adds up if no such shard has anything left. -/
theorem run_accounts (handle : Handler α σ) (kind : PacketKind) (config : QueueConfig) (state : σ)
    (events : List (Queue.Event α)) :
    let l := (start kind config state).run handle events
    let q := l.queue
    q.enqueued = l.accepted ∧
    l.accepted + l.full + q.stranded = q.handled + q.failed + q.dropped + q.pending + q.inHand ∧
    (q.inHand = 0 → (l.accepted + l.full = q.handled + q.failed + q.dropped + q.pending ↔
      ∀ s, s ∈ q.shards → s.ended → s.waiting = [])) ∧
    (¬ q.stopped → q.stranded = 0) := by
  intro l q
  have h : l.Balanced := run_balanced (start_balanced kind config state) events
  have sums := Queue.pending_add_inHand q
  have books : l.accepted + l.full =
    q.handled + q.failed + q.dropped + Queue.unsettled q.shards := h.books
  have total : l.accepted + l.full + q.stranded =
      q.handled + q.failed + q.dropped + q.pending + q.inHand := by
    omega
  refine ⟨h.enqueued, total, fun quiet => ?_, fun running => ?_⟩
  · rw [← Queue.stranded_eq_zero]
    omega
  · rw [Queue.stranded_eq_zero]
    intro s hs left
    obtain ⟨i, hi, rfl⟩ := List.getElem_of_mem hs
    have same : q.shard i = q.shards[i] := by simp [Queue.shard, hi]
    exact absurd (h.orderly.ended i (same ▸ left)).1 running

/-- One entry is dealt with and stops the queue, the next is in hand then, and a third waits: the third
is reported as dropped and as pending. -/
theorem abandoned_entry_counts_twice :
    let offer (n : UInt64) : Queue.Event Unit := .enqueue ⟨n⟩ ()
    let l : Ledger Unit Unit := (start .playerPureSync { capacity := 8, batch := 1 } ()).run
      (fun _ s => (⟨true, true⟩, s)) [offer 1, offer 1, offer 1, .take 0, .serve 0, .take 0, .serve 0]
    l.queue.inHand = 0 ∧ l.accepted = 3 ∧ l.full = 0 ∧ l.queue.handled = 1 ∧ l.queue.failed = 0 ∧
      l.queue.dropped = 2 ∧ l.queue.pending = 1 := by
  decide

end Ledger
end SharedWorld
