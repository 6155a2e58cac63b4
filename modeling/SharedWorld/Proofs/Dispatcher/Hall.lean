import SharedWorld.Proofs.Dispatcher.Effects

/-! A dispatcher at work, with a record of the entries that were accepted and of those that were passed
to a handler. Registrations, offers, stops and the steps of all workers come in any order. A queue that
was replaced or let go is stopped, but its workers may still be there. -/
namespace SharedWorld

/-- An entry with the handler it is meant for. The era counts the registrations for its kind. -/
structure Ticket (η α : Type) where
  kind : PacketKind
  era : Nat
  handler : η
  entry : QueueEntry α

def Ticket.key {η α : Type} (t : Ticket η α) : PacketKind × Nat × Nat :=
  (t.kind, t.era, t.entry.sequence)

/-- A binding that is no longer the one of its kind. -/
structure Post (η α : Type) where
  kind : PacketKind
  era : Nat
  binding : Binding η α

structure Hall (η α σ : Type) where
  dispatcher : Dispatcher η α := {}
  -- how often a handler was registered for a kind
  era : PacketKind → Nat := fun _ => 0
  retired : List (Post η α) := []
  state : σ
  accepted : List (Ticket η α) := []
  passed : List (Ticket η α) := []

namespace Hall
variable {η α σ : Type}

inductive Event (η α σ : Type)
  | register (kind : PacketKind) (handler : η) (config : QueueConfig)
  | enqueue (kind : PacketKind) (endpoint : Endpoint) (item : α)
  | stop (kind : PacketKind)
  | shutdown
  | take (kind : PacketKind) (shard : Nat)
  | serve (kind : PacketKind) (shard : Nat)
  | takeRetired (post shard : Nat)
  | serveRetired (post shard : Nat)
  | errand (f : σ → σ)

def binding (h : Hall η α σ) (kind : PacketKind) : Option (Binding η α) :=
  h.dispatcher.bindings.find? kind

/-- The handler, which has it noted down what it is passed. -/
def noting (handle : η → Handler α σ) (kind : PacketKind) (era : Nat) (handler : η) :
    Handler α (σ × List (Ticket η α)) := fun e (s, passed) =>
  let (outcome, s) := handle handler e s
  (outcome, s, passed ++ [⟨kind, era, handler, e⟩])

def retire (h : Hall η α σ) (kind : PacketKind) (b : Binding η α) : Post η α :=
  ⟨kind, h.era kind, { b with queue := b.queue.stop }⟩

def step (handle : η → Handler α σ) (h : Hall η α σ) : Event η α σ → Hall η α σ
  | .register kind handler config =>
    { h with
      dispatcher := h.dispatcher.register kind handler config
      era := fun k => if k = kind then h.era kind + 1 else h.era k
      retired := h.retired ++ ((h.binding kind).map (h.retire kind)).toList }
  | .enqueue kind endpoint item =>
    match h.dispatcher.enqueue kind endpoint item, h.binding kind with
    | (.ok sequence, dispatcher), some b =>
      { h with
        dispatcher
        accepted := h.accepted ++ [⟨kind, h.era kind, b.handler, endpoint, item, sequence⟩] }
    | (_, dispatcher), _ => { h with dispatcher }
  | .stop kind => { h with dispatcher := h.dispatcher.stop kind }
  | .shutdown =>
    { h with
      dispatcher := h.dispatcher.shutdown
      retired := h.retired ++ h.dispatcher.bindings.entries.map fun (kind, b) => h.retire kind b }
  | .take kind shard =>
    match h.binding kind with
    | none => h
    | some b => { h with dispatcher := h.dispatcher.setQueue kind (b.queue.take shard) }
  | .serve kind shard =>
    match h.binding kind with
    | none => h
    | some b =>
      let (queue, state, passed) :=
        b.queue.serve (noting handle kind (h.era kind) b.handler) shard (h.state, h.passed)
      { h with dispatcher := h.dispatcher.setQueue kind queue, state, passed }
  | .takeRetired post shard =>
    { h with retired := h.retired.modify post fun p =>
        { p with binding := { p.binding with queue := p.binding.queue.take shard } } }
  | .serveRetired post shard =>
    match h.retired[post]? with
    | none => h
    | some p =>
      let (queue, state, passed) := p.binding.queue.serve
        (noting handle p.kind p.era p.binding.handler) shard (h.state, h.passed)
      { h with
        retired := h.retired.set post { p with binding := { p.binding with queue } }
        state
        passed }
  | .errand f => { h with state := f h.state }

def run (handle : η → Handler α σ) (h : Hall η α σ) (events : List (Event η α σ)) : Hall η α σ :=
  events.foldl (step handle) h

def start (state : σ) : Hall η α σ := { state }

variable {h h' : Hall η α σ} {handle : η → Handler α σ}

theorem serves_eq_work {kind : PacketKind} {b : Binding η α} (bound : h.binding kind = some b)
    (shard n : Nat) (queue : Queue α) (s : σ) (passed : List (Ticket η α)) :
    run handle { h with dispatcher := h.dispatcher.setQueue kind queue, state := s, passed }
      (List.replicate n (.serve kind shard)) =
      let (queue, state, passed) :=
        Queue.work (noting handle kind (h.era kind) b.handler) shard n queue (s, passed)
      { h with dispatcher := h.dispatcher.setQueue kind queue, state, passed } := by
  induction n generalizing queue s passed with
  | zero => rfl
  | succ n ih =>
    have found := (Dispatcher.setQueue_bindings bound queue kind).trans (if_pos rfl)
    rw [List.replicate_succ, run, List.foldl_cons, step]
    simp only [binding, found, Dispatcher.setQueue_setQueue]
    exact ih ..

theorem turn_eq_run {kind : PacketKind} {b : Binding η α} (bound : h.binding kind = some b)
    (shard : Nat) :
    h.run handle (.take kind shard ::
        List.replicate ((b.queue.take shard).held shard).length (.serve kind shard)) =
      let (dispatcher, state, passed) := h.dispatcher.turn (noting handle kind (h.era kind)) id
        (.shard kind shard) (h.state, h.passed)
      { h with dispatcher, state, passed } := by
  have found : h.dispatcher.bindings.find? kind = some b := bound
  rw [run, List.foldl_cons, step]
  simp only [bound, Dispatcher.turn, found, Queue.turn]
  exact serves_eq_work bound ..

def Rebound (h h' : Hall η α σ) (kind : PacketKind) (b : Binding η α) : Prop :=
  ∀ k, h'.binding k = if k = kind then some b else h.binding k

inductive Move (h h' : Hall η α σ) : Prop
  | aside (binding : h'.binding = h.binding) (era : h'.era = h.era)
      (accepted : h'.accepted = h.accepted) (passed : h'.passed = h.passed)
  | opened (kind : PacketKind) (handler : η) (config : QueueConfig)
      (binding : Rebound h h' kind ⟨handler, .start kind config⟩)
      (era : ∀ k, h'.era k = if k = kind then h.era kind + 1 else h.era k)
      (accepted : h'.accepted = h.accepted) (passed : h'.passed = h.passed)
  | closed (binding : ∀ k, h'.binding k = none) (era : h'.era = h.era)
      (accepted : h'.accepted = h.accepted) (passed : h'.passed = h.passed)
  | shed (kind : PacketKind) (b : Binding η α) (queue : Queue α) (bound : h.binding kind = some b)
      (change : Queue.Shed b.queue queue) (binding : Rebound h h' kind { b with queue })
      (era : h'.era = h.era) (accepted : h'.accepted = h.accepted) (passed : h'.passed = h.passed)
  | accepted (kind : PacketKind) (b : Binding η α) (queue : Queue α) (e : QueueEntry α)
      (bound : h.binding kind = some b) (change : Queue.Grown b.queue queue e)
      (binding : Rebound h h' kind { b with queue }) (era : h'.era = h.era)
      (accepted : h'.accepted = h.accepted ++ [⟨kind, h.era kind, b.handler, e⟩])
      (passed : h'.passed = h.passed)
  | passed (kind : PacketKind) (b : Binding η α) (queue : Queue α) (e : QueueEntry α)
      (bound : h.binding kind = some b) (change : Queue.Passed b.queue queue e)
      (binding : Rebound h h' kind { b with queue }) (era : h'.era = h.era)
      (accepted : h'.accepted = h.accepted)
      (passed : h'.passed = h.passed ++ [⟨kind, h.era kind, b.handler, e⟩])

theorem step_enqueue_move {kind : PacketKind} {endpoint : Endpoint} {item : α}
    (orderly : ∀ k b, h.binding k = some b → b.queue.Orderly) :
    Move h (h.step handle (.enqueue kind endpoint item)) := by
  have found : h.dispatcher.bindings.find? kind = h.binding kind := rfl
  unfold step
  dsimp only
  cases bound : h.binding kind with
  | none =>
    simp only [Dispatcher.enqueue, found, bound]
    exact .aside rfl rfl rfl rfl
  | some b =>
    simp only [Dispatcher.enqueue, found, bound]
    rcases Queue.enqueue_change (orderly kind b bound) endpoint item with ⟨err, he, shed⟩ | ⟨he, grown⟩
    · rw [he]
      exact .shed kind b _ bound shed (Dispatcher.setQueue_bindings bound _) rfl rfl rfl
    · rw [he]
      exact .accepted kind b _ _ bound grown (Dispatcher.setQueue_bindings bound _) rfl rfl rfl

theorem step_serve_move {kind : PacketKind} {shard : Nat}
    (orderly : ∀ k b, h.binding k = some b → b.queue.Orderly) :
    Move h (h.step handle (.serve kind shard)) := by
  unfold step
  dsimp only
  cases bound : h.binding kind with
  | none => exact .aside rfl rfl rfl rfl
  | some b =>
    rcases Queue.serve_change (orderly kind b bound)
      (noting handle kind (h.era kind) b.handler) shard (h.state, h.passed) with
      ⟨shed, same⟩ | ⟨e, passed, same⟩
    · exact .shed kind b _ bound shed (Dispatcher.setQueue_bindings bound _) rfl rfl
        (congrArg Prod.snd same)
    · exact .passed kind b _ e bound passed (Dispatcher.setQueue_bindings bound _) rfl rfl
        (congrArg Prod.snd same)

theorem serve_of_stopped {q : Queue α} (stopped : q.stopped) (f : Handler α σ) (shard : Nat) (s : σ) :
    (q.serve f shard s).2 = s ∧ (q.serve f shard s).1.stopped := by
  rcases Queue.serve_cases f shard q s with ⟨_, hs⟩ | ⟨e, rest, _, ⟨_, hs⟩ | ⟨running, _⟩⟩
  · rw [hs]
    exact ⟨rfl, stopped⟩
  · rw [hs]
    exact ⟨rfl, stopped⟩
  · exact absurd stopped running

theorem step_move (orderly : ∀ k b, h.binding k = some b → b.queue.Orderly)
    (retired : ∀ p, p ∈ h.retired → p.binding.queue.stopped) (event : Event η α σ) :
    Move h (h.step handle event) := by
  cases event with
  | register kind handler config =>
    refine .opened kind handler config (fun k => ?_) (fun _ => rfl) rfl rfl
    exact Table.find?_insert ..
  | enqueue kind endpoint item => exact step_enqueue_move orderly
  | stop kind =>
    have stopped (k) : (h.dispatcher.stop kind).bindings.find? k =
        if k = kind then (h.binding k).map fun b => { b with queue := b.queue.stop }
        else h.binding k := Table.find?_modify_eq ..
    cases bound : h.binding kind with
    | none =>
      refine .aside (funext fun k => (stopped k).trans ?_) rfl rfl rfl
      split
      · next hk => simp [hk, bound]
      · rfl
    | some b =>
      refine .shed kind b _ bound (Queue.stop_shed (orderly kind b bound))
        (fun k => (stopped k).trans ?_) rfl rfl rfl
      split
      · next hk => simp [hk, bound]
      · rfl
  | shutdown => exact .closed (fun _ => rfl) rfl rfl rfl
  | take kind shard =>
    unfold step
    dsimp only
    cases bound : h.binding kind with
    | none => exact .aside rfl rfl rfl rfl
    | some b =>
      exact .shed kind b _ bound (Queue.take_shed (orderly kind b bound) shard)
        (Dispatcher.setQueue_bindings bound _) rfl rfl rfl
  | serve kind shard => exact step_serve_move orderly
  | takeRetired post shard => exact .aside rfl rfl rfl rfl
  | serveRetired post shard =>
    unfold step
    dsimp only
    cases found : h.retired[post]? with
    | none => exact .aside rfl rfl rfl rfl
    | some p =>
      -- The queue of a handler that gave way is stopped, and its worker passes nothing on.
      have quiet := serve_of_stopped (retired p (List.mem_of_getElem? found))
        (noting handle p.kind p.era p.binding.handler) shard (h.state, h.passed)
      exact .aside rfl rfl rfl (congrArg Prod.snd quiet.1)
  | errand f => exact .aside rfl rfl rfl rfl

theorem step_retired (retired : ∀ p, p ∈ h.retired → p.binding.queue.stopped)
    (event : Event η α σ) (p : Post η α) (hp : p ∈ (h.step handle event).retired) :
    p.binding.queue.stopped := by
  cases event with
  | register kind handler config =>
    rcases List.mem_append.mp hp with hp | hp
    · exact retired p hp
    · simp only [Option.mem_toList, Option.map_eq_some_iff] at hp
      obtain ⟨b, _, rfl⟩ := hp
      rfl
  | shutdown =>
    rcases List.mem_append.mp hp with hp | hp
    · exact retired p hp
    · obtain ⟨⟨kind, b⟩, _, rfl⟩ := List.mem_map.mp hp
      rfl
  | takeRetired post shard =>
    obtain ⟨i, hi, rfl⟩ := List.getElem_of_mem hp
    simp only [step, List.getElem_modify]
    have inside : i < h.retired.length := by simpa [step] using hi
    have old := retired _ (List.getElem_mem inside)
    split <;> exact old
  | serveRetired post shard =>
    unfold step at hp
    dsimp only at hp
    cases found : h.retired[post]? with
    | none =>
      rw [found] at hp
      exact retired p hp
    | some old =>
      rw [found] at hp
      rcases List.mem_or_eq_of_mem_set hp with hp | rfl
      · exact retired p hp
      · exact (serve_of_stopped (retired old (List.mem_of_getElem? found)) _ _ _).2
  | stop kind | errand f => exact retired p hp
  | enqueue kind endpoint item =>
    unfold step at hp
    dsimp only at hp
    split at hp <;> exact retired p hp
  | take kind shard | serve kind shard =>
    unfold step at hp
    dsimp only at hp
    split at hp <;> exact retired p hp

end Hall
end SharedWorld
