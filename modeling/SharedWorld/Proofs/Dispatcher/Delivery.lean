import Mathlib.Data.List.Perm.Subperm
import SharedWorld.Proofs.Dispatcher.Hall

/-! What a handler is passed, and in which order. -/
namespace SharedWorld.Hall
variable {η α σ : Type} {h h' : Hall η α σ} {handle : η → Handler α σ}

def ofQueue (kind : PacketKind) (era : Nat) (log : List (Ticket η α)) : List (Ticket η α) :=
  log.filter fun t => t.kind = kind ∧ t.era = era

def ofClient (kind : PacketKind) (endpoint : Endpoint) (log : List (Ticket η α)) :
    List (Ticket η α) :=
  log.filter fun t => t.kind = kind ∧ t.entry.endpoint = endpoint

/-- The entries of a client that are still to be passed on. -/
def line (h : Hall η α σ) (kind : PacketKind) (endpoint : Endpoint) : List (Ticket η α) :=
  match h.binding kind with
  | none => []
  | some b => (b.queue.line endpoint).map (Ticket.mk kind (h.era kind) b.handler)

section Log
variable {kind k : PacketKind} {era e : Nat} {endpoint : Endpoint} {log more : List (Ticket η α)}
  {handler : η} {entry : QueueEntry α}

theorem ofQueue_append :
    ofQueue k e (log ++ more) = ofQueue k e log ++ ofQueue k e more := List.filter_append ..

theorem ofClient_append :
    ofClient k endpoint (log ++ more) = ofClient k endpoint log ++ ofClient k endpoint more :=
  List.filter_append ..

theorem ofQueue_self : ofQueue kind era [⟨kind, era, handler, entry⟩] =
    [(⟨kind, era, handler, entry⟩ : Ticket η α)] := by
  simp [ofQueue]

theorem ofQueue_other (other : ¬ (k = kind ∧ e = era)) :
    ofQueue k e [(⟨kind, era, handler, entry⟩ : Ticket η α)] = [] := by
  simp only [ofQueue, List.filter_eq_nil_iff, List.mem_singleton, decide_eq_true_eq]
  rintro t rfl ⟨rfl, rfl⟩
  exact other ⟨rfl, rfl⟩

theorem ofClient_self : ofClient kind endpoint [(⟨kind, era, handler, entry⟩ : Ticket η α)] =
    ([entry].filter (·.endpoint = endpoint)).map (Ticket.mk kind era handler) := by
  by_cases his : entry.endpoint = endpoint <;> simp [ofClient, his]

theorem ofClient_other (other : k ≠ kind) :
    ofClient k endpoint [(⟨kind, era, handler, entry⟩ : Ticket η α)] = [] := by
  simp [ofClient, other.symm]

theorem ofQueue_future (past : ∀ t, t ∈ log → t.kind = k → t.era ≤ era) :
    ofQueue k (era + 1) log = [] := by
  simp only [ofQueue, List.filter_eq_nil_iff, decide_eq_true_eq]
  intro t ht his
  have := past t ht his.1
  omega

theorem nodup_key (numbers : ∀ k e, ((ofQueue k e log).map (·.entry.sequence)).Nodup) :
    (log.map Ticket.key).Nodup := by
  rw [List.Nodup, List.pairwise_map, List.pairwise_iff_forall_sublist]
  intro a b hab same
  have apart := numbers a.kind a.era
  rw [List.Nodup, List.pairwise_map, ofQueue, List.pairwise_filter,
    List.pairwise_iff_forall_sublist] at apart
  simp only [Ticket.key, Prod.mk.injEq] at same
  refine apart hab ?_ ?_ same.2.2
  · simp
  · simp [same.1, same.2.1]

open Classical in
theorem count_ofClient (t : Ticket η α) (log : List (Ticket η α)) :
    (ofClient t.kind t.entry.endpoint log).count t = log.count t :=
  List.count_filter (by simp)

theorem subperm_of_ofClient
    (rows : ∀ k c, (ofClient k c log).Sublist (ofClient k c more)) : log.Subperm more := by
  classical
  rw [List.subperm_ext_iff]
  intro t _
  rw [← count_ofClient t log, ← count_ofClient t more]
  exact (rows t.kind t.entry.endpoint).count_le t

theorem perm_of_ofClient (rows : ∀ k c, ofClient k c log = ofClient k c more) : log.Perm more := by
  classical
  rw [List.perm_iff_count]
  intro t
  rw [← count_ofClient t log, ← count_ofClient t more, rows]

end Log

theorem line_of_unbound {kind : PacketKind} (h : Hall η α σ) (unbound : h.binding kind = none)
    (endpoint : Endpoint) : h.line kind endpoint = [] := by
  unfold line
  rw [unbound]

theorem line_of_bound {kind : PacketKind} {b : Binding η α} (bound : h.binding kind = some b)
    (endpoint : Endpoint) : h.line kind endpoint =
      (b.queue.line endpoint).map (Ticket.mk kind (h.era kind) b.handler) := by
  unfold line
  rw [bound]

theorem line_congr {kind : PacketKind} (binding : h'.binding kind = h.binding kind)
    (era : h'.era kind = h.era kind) (endpoint : Endpoint) :
    h'.line kind endpoint = h.line kind endpoint := by
  unfold line
  rw [binding, era]

theorem Rebound.self {kind : PacketKind} {b : Binding η α} (binding : Rebound h h' kind b) :
    h'.binding kind = some b := (binding kind).trans (if_pos rfl)

theorem Rebound.other {kind k : PacketKind} {b : Binding η α} (binding : Rebound h h' kind b)
    (other : k ≠ kind) : h'.binding k = h.binding k := (binding k).trans (if_neg other)

theorem Rebound.find {kind k : PacketKind} {b new : Binding η α} (binding : Rebound h h' kind new)
    (bound : h'.binding k = some b) : k = kind ∧ b = new ∨ k ≠ kind ∧ h.binding k = some b := by
  by_cases hk : k = kind
  · subst hk
    exact .inl ⟨rfl, Option.some.inj (bound.symm.trans binding.self)⟩
  · exact .inr ⟨hk, binding.other hk ▸ bound⟩

structure Recorded (h : Hall η α σ) : Prop where
  orderly : ∀ k b, h.binding k = some b → b.queue.Orderly
  retired : ∀ p, p ∈ h.retired → p.binding.queue.stopped
  eras : ∀ t, t ∈ h.accepted → t.era ≤ h.era t.kind
  numbered : ∀ k b, h.binding k = some b →
    (ofQueue k (h.era k) h.accepted).map (·.entry.sequence) = List.range b.queue.sequence
  ranges : ∀ k e, ∃ n, (ofQueue k e h.accepted).map (·.entry.sequence) = List.range n
  inOrder : ∀ k c, (ofClient k c h.passed ++ h.line k c).Sublist (ofClient k c h.accepted)
  complete : ∀ k b, h.binding k = some b → ¬ b.queue.stopped → ∀ c,
    ofClient k c (ofQueue k (h.era k) h.passed) ++ h.line k c =
      ofClient k c (ofQueue k (h.era k) h.accepted)

theorem start_recorded (state : σ) : (start state : Hall η α σ).Recorded where
  orderly _ _ bound := by cases bound
  retired _ hp := by cases hp
  eras _ ht := by cases ht
  numbered _ _ bound := by cases bound
  ranges _ _ := ⟨0, rfl⟩
  inOrder _ _ := List.Sublist.refl _
  complete _ _ bound := by cases bound

theorem Recorded.subperm (ok : h.Recorded) : h.passed.Subperm h.accepted :=
  subperm_of_ofClient fun k c => (List.sublist_append_left _ _).trans (ok.inOrder k c)

theorem Move.era_le (move : Move h h') (k : PacketKind) : h.era k ≤ h'.era k := by
  cases move with
  | opened kind handler config binding era =>
    rw [era]
    split
    · next hk =>
      rw [hk]
      omega
    · exact Nat.le_refl _
  | aside _ era | closed _ era | shed _ _ _ _ _ _ era | accepted _ _ _ _ _ _ _ era
  | passed _ _ _ _ _ _ _ era => exact Nat.le_of_eq (congrFun era k).symm

theorem Move.orderly (move : Move h h') (ok : h.Recorded) (k : PacketKind) (b : Binding η α)
    (bound : h'.binding k = some b) : b.queue.Orderly := by
  cases move with
  | aside binding => exact ok.orderly k b (binding ▸ bound)
  | closed binding => cases (binding k).symm.trans bound
  | opened kind handler config binding =>
    rcases binding.find bound with ⟨rfl, rfl⟩ | ⟨_, bound⟩
    · exact Queue.start_orderly ..
    · exact ok.orderly k b bound
  | shed kind _ _ _ change binding | accepted kind _ _ _ _ change binding
  | passed kind _ _ _ _ change binding =>
    rcases binding.find bound with ⟨rfl, rfl⟩ | ⟨_, bound⟩
    · exact change.orderly
    · exact ok.orderly k b bound

theorem Move.eras (move : Move h h') (ok : h.Recorded) (t : Ticket η α) (ht : t ∈ h'.accepted) :
    t.era ≤ h'.era t.kind := by
  have grows := move.era_le t.kind
  cases move with
  | accepted kind b queue e _ _ _ era accepted =>
    rw [accepted, List.mem_append, List.mem_singleton] at ht
    rw [era]
    rcases ht with ht | rfl
    · exact ok.eras t ht
    · exact Nat.le_refl _
  | aside _ _ accepted | opened _ _ _ _ _ accepted | closed _ _ accepted
  | shed _ _ _ _ _ _ _ accepted | passed _ _ _ _ _ _ _ _ accepted =>
    exact Nat.le_trans (ok.eras t (accepted ▸ ht)) grows

theorem Move.numbered (move : Move h h') (ok : h.Recorded) (k : PacketKind) (b : Binding η α)
    (bound : h'.binding k = some b) :
    (ofQueue k (h'.era k) h'.accepted).map (·.entry.sequence) = List.range b.queue.sequence := by
  cases move with
  | aside binding era accepted =>
    rw [era, accepted]
    exact ok.numbered k b (binding ▸ bound)
  | closed binding => cases (binding k).symm.trans bound
  | opened kind handler config binding era accepted =>
    rw [era, accepted]
    rcases binding.find bound with ⟨rfl, rfl⟩ | ⟨hk, bound⟩
    · rw [if_pos rfl, ofQueue_future fun t ht hkind => hkind ▸ ok.eras t ht]
      rfl
    · rw [if_neg hk]
      exact ok.numbered k b bound
  | accepted kind old queue e held change binding era accepted =>
    rw [era, accepted, ofQueue_append, List.map_append]
    rcases binding.find bound with ⟨rfl, rfl⟩ | ⟨hk, bound⟩
    · rw [ofQueue_self, ok.numbered k old held, change.sequence, List.range_succ, ← change.number]
      rfl
    · rw [ofQueue_other fun his => hk his.1, List.map_nil, List.append_nil]
      exact ok.numbered k b bound
  | shed kind old queue held change binding era accepted
  | passed kind old queue _ held change binding era accepted =>
    rw [era, accepted]
    rcases binding.find bound with ⟨rfl, rfl⟩ | ⟨_, bound⟩
    · rw [ok.numbered k old held, ← change.sequence]
    · exact ok.numbered k b bound

theorem Move.ranges (move : Move h h') (ok : h.Recorded) (k : PacketKind) (e : Nat) :
    ∃ n, (ofQueue k e h'.accepted).map (·.entry.sequence) = List.range n := by
  cases move with
  | accepted kind b queue entry bound change binding era accepted =>
    rw [accepted, ofQueue_append, List.map_append]
    by_cases his : k = kind ∧ e = h.era kind
    · obtain ⟨rfl, rfl⟩ := his
      refine ⟨b.queue.sequence + 1, ?_⟩
      rw [ofQueue_self, ok.numbered k b bound, List.range_succ, ← change.number]
      rfl
    · rw [ofQueue_other his, List.map_nil, List.append_nil]
      exact ok.ranges k e
  | aside _ _ accepted | opened _ _ _ _ _ accepted | closed _ _ accepted
  | shed _ _ _ _ _ _ _ accepted | passed _ _ _ _ _ _ _ _ accepted =>
    rw [accepted]
    exact ok.ranges k e

theorem Move.inOrder (move : Move h h') (ok : h.Recorded) (k : PacketKind) (c : Endpoint) :
    (ofClient k c h'.passed ++ h'.line k c).Sublist (ofClient k c h'.accepted) := by
  have old := ok.inOrder k c
  cases move with
  | aside binding era accepted passed =>
    rw [accepted, passed, line_congr (congrFun binding k) (congrFun era k)]
    exact old
  | closed binding _ accepted passed =>
    rw [accepted, passed, line_of_unbound h' (binding k), List.append_nil]
    exact (List.sublist_append_left _ _).trans old
  | opened kind handler config binding era accepted passed =>
    rw [accepted, passed]
    by_cases hk : k = kind
    · subst hk
      rw [line_of_bound binding.self, Queue.start_line, List.map_nil, List.append_nil]
      exact (List.sublist_append_left _ _).trans old
    · rw [line_congr (binding.other hk) (by rw [era, if_neg hk])]
      exact old
  | shed kind b queue bound change binding era accepted passed =>
    rw [accepted, passed]
    by_cases hk : k = kind
    · subst hk
      rw [line_of_bound binding.self, era]
      rw [line_of_bound bound] at old
      exact (((change.line c).map _).append_left _).trans old
    · rw [line_congr (binding.other hk) (congrFun era k)]
      exact old
  | accepted kind b queue e bound change binding era accepted passed =>
    rw [accepted, passed, ofClient_append]
    by_cases hk : k = kind
    · subst hk
      rw [line_of_bound binding.self, change.line, List.map_append, era, ofClient_self,
        ← List.append_assoc]
      rw [line_of_bound bound] at old
      exact old.append_right _
    · rw [line_congr (binding.other hk) (congrFun era k), ofClient_other hk, List.append_nil]
      exact old
  | passed kind b queue e bound change binding era accepted passed =>
    rw [accepted, passed, ofClient_append]
    by_cases hk : k = kind
    · subst hk
      rw [line_of_bound binding.self, era, ofClient_self, List.append_assoc, ← List.map_append,
        ← change.line, ← line_of_bound bound]
      exact old
    · rw [line_congr (binding.other hk) (congrFun era k), ofClient_other hk, List.append_nil]
      exact old

theorem Move.complete (move : Move h h') (ok : h.Recorded) (k : PacketKind) (b : Binding η α)
    (bound : h'.binding k = some b) (running : ¬ b.queue.stopped) (c : Endpoint) :
    ofClient k c (ofQueue k (h'.era k) h'.passed) ++ h'.line k c =
      ofClient k c (ofQueue k (h'.era k) h'.accepted) := by
  cases move with
  | aside binding era accepted passed =>
    rw [era, accepted, passed, line_congr (congrFun binding k) (congrFun era k)]
    exact ok.complete k b (binding ▸ bound) running c
  | closed binding => cases (binding k).symm.trans bound
  | opened kind handler config binding era accepted passed =>
    rw [era, accepted, passed]
    rcases binding.find bound with ⟨rfl, rfl⟩ | ⟨hk, bound⟩
    · -- Nothing went through the new queue yet.
      have past (t) (ht : t ∈ h.accepted) (his : t.kind = k) : t.era ≤ h.era k :=
        his ▸ ok.eras t ht
      rw [if_pos rfl, ofQueue_future past, ofQueue_future fun t ht => past t (ok.subperm.subset ht),
        line_of_bound binding.self, Queue.start_line]
      rfl
    · rw [if_neg hk, line_congr (binding.other hk) (by rw [era, if_neg hk])]
      exact ok.complete k b bound running c
  | shed kind old queue held change binding era accepted passed =>
    rw [era, accepted, passed]
    rcases binding.find bound with ⟨rfl, rfl⟩ | ⟨hk, bound⟩
    · have whole := ok.complete k old held (fun stopped => running (change.stopped stopped)) c
      rw [line_of_bound binding.self, change.kept running, era, ← line_of_bound held]
      exact whole
    · rw [line_congr (binding.other hk) (congrFun era k)]
      exact ok.complete k b bound running c
  | accepted kind old queue e held change binding era accepted passed =>
    rw [era, accepted, passed, ofQueue_append, ofClient_append]
    rcases binding.find bound with ⟨rfl, rfl⟩ | ⟨hk, bound⟩
    · have whole := ok.complete k old held change.running c
      rw [line_of_bound held] at whole
      rw [line_of_bound binding.self, change.line, List.map_append, era, ofQueue_self,
        ofClient_self, ← List.append_assoc, whole]
    · rw [line_congr (binding.other hk) (congrFun era k), ofQueue_other fun his => hk his.1]
      exact (ok.complete k b bound running c).trans (List.append_nil _).symm
  | passed kind old queue e held change binding era accepted passed =>
    rw [era, accepted, passed, ofQueue_append, ofClient_append]
    rcases binding.find bound with ⟨rfl, rfl⟩ | ⟨hk, bound⟩
    · have whole := ok.complete k old held change.running c
      rw [line_of_bound binding.self, era, ofQueue_self, ofClient_self, List.append_assoc,
        ← List.map_append, ← change.line, ← line_of_bound held]
      exact whole
    · rw [line_congr (binding.other hk) (congrFun era k), ofQueue_other fun his => hk his.1]
      exact (congrArg (· ++ _) (List.append_nil _)).trans
        (ok.complete k b bound running c)

theorem step_recorded (ok : h.Recorded) (event : Event η α σ) : (h.step handle event).Recorded := by
  have move : Move h (h.step handle event) := step_move ok.orderly ok.retired event
  exact {
    orderly := move.orderly ok
    retired := step_retired ok.retired event
    eras := move.eras ok
    numbered := move.numbered ok
    ranges := move.ranges ok
    inOrder := move.inOrder ok
    complete := move.complete ok }

theorem run_recorded (ok : h.Recorded) (events : List (Event η α σ)) :
    (h.run handle events).Recorded := by
  induction events generalizing h with
  | nil => exact ok
  | cons event events ih => exact ih (step_recorded ok event)

/-- A queue that was stopped, or that another took the place of, or that was let go of. -/
def Closed (h : Hall η α σ) (kind : PacketKind) (era : Nat) : Prop :=
  era ≤ h.era kind ∧
    ∀ b, era = h.era kind → h.binding kind = some b → b.queue.stopped

/-- The queue of a kind is stopped, gives way to another or is let go of. -/
def Event.Closes (kind : PacketKind) : Event η α σ → Prop
  | register k _ _ | stop k => k = kind
  | shutdown => True
  | _ => False

theorem step_closed {kind : PacketKind} {event : Event η α σ} (closes : event.Closes kind) :
    (h.step handle event).Closed kind (h.era kind) ∧ (h.step handle event).passed = h.passed := by
  cases event with
  | register k handler config =>
    cases closes
    have next : (h.step handle (.register kind handler config)).era kind = h.era kind + 1 :=
      if_pos rfl
    exact ⟨⟨by omega, fun b same => by omega⟩, rfl⟩
  | stop k =>
    cases closes
    refine ⟨⟨Nat.le_refl _, fun b _ bound => ?_⟩, rfl⟩
    obtain ⟨old, _, rfl⟩ := Option.map_eq_some_iff.mp
      (((Table.find?_modify_eq ..).trans (if_pos rfl)).symm.trans bound)
    rfl
  | shutdown => exact ⟨⟨Nat.le_refl _, fun b _ bound => by cases bound⟩, rfl⟩
  | enqueue | take | serve | takeRetired | serveRetired | errand => cases closes

theorem Move.closed_passed (move : Move h h') {k : PacketKind} {e : Nat} (closed : h.Closed k e) :
    h'.Closed k e ∧ ofQueue k e h'.passed = ofQueue k e h.passed := by
  obtain ⟨past, stopped⟩ := closed
  have grows := move.era_le k
  cases move with
  | aside binding era accepted passed =>
    refine ⟨⟨Nat.le_trans past grows, fun b same bound => ?_⟩, congrArg _ passed⟩
    exact stopped b (era ▸ same) (binding ▸ bound)
  | closed binding era accepted passed =>
    refine ⟨⟨Nat.le_trans past grows, fun b _ bound => ?_⟩, congrArg _ passed⟩
    cases (binding k).symm.trans bound
  | opened kind handler config binding era accepted passed =>
    refine ⟨⟨Nat.le_trans past grows, fun b same bound => ?_⟩, congrArg _ passed⟩
    rw [era] at same
    rcases binding.find bound with ⟨rfl, rfl⟩ | ⟨hk, bound⟩
    · rw [if_pos rfl] at same
      omega
    · exact stopped b (same.trans (if_neg hk)) bound
  | shed kind old queue held change binding era accepted passed =>
    refine ⟨⟨Nat.le_trans past grows, fun b same bound => ?_⟩, congrArg _ passed⟩
    rw [era] at same
    rcases binding.find bound with ⟨rfl, rfl⟩ | ⟨_, bound⟩
    · exact change.stopped (stopped old same held)
    · exact stopped b same bound
  | accepted kind old queue entry held change binding era accepted passed =>
    refine ⟨⟨Nat.le_trans past grows, fun b same bound => ?_⟩, congrArg _ passed⟩
    rw [era] at same
    rcases binding.find bound with ⟨rfl, rfl⟩ | ⟨_, bound⟩
    · exact absurd (stopped old same held) change.running
    · exact stopped b same bound
  | passed kind old queue entry held change binding era accepted passed =>
    have other : ¬ (k = kind ∧ e = h.era kind) := by
      rintro ⟨rfl, same⟩
      exact change.running (stopped old same held)
    refine ⟨⟨Nat.le_trans past grows, fun b same bound => ?_⟩, ?_⟩
    · rw [era] at same
      rcases binding.find bound with ⟨rfl, rfl⟩ | ⟨_, bound⟩
      · exact absurd ⟨rfl, same⟩ other
      · exact stopped b same bound
    · rw [passed, ofQueue_append, ofQueue_other other, List.append_nil]

theorem run_closed_passed (ok : h.Recorded) {k : PacketKind} {e : Nat} (closed : h.Closed k e)
    (events : List (Event η α σ)) :
    ofQueue k e (h.run handle events).passed = ofQueue k e h.passed := by
  induction events generalizing h with
  | nil => rfl
  | cons event events ih =>
    have move : Move h (h.step handle event) := step_move ok.orderly ok.retired event
    have next := move.closed_passed closed
    exact (ih (step_recorded ok event) next.1).trans next.2

theorem Recorded.all_passed (ok : h.Recorded) {kind : PacketKind} {b : Binding η α}
    (bound : h.binding kind = some b) (running : ¬ b.queue.stopped) (idle : b.queue.Idle) :
    (ofQueue kind (h.era kind) h.passed).Perm (ofQueue kind (h.era kind) h.accepted) := by
  refine perm_of_ofClient fun k c => ?_
  by_cases hk : k = kind
  · subst hk
    have whole := ok.complete k b bound running c
    rw [line_of_bound bound, Queue.line_of_idle (ok.orderly k b bound) running idle] at whole
    exact (List.append_nil _).symm.trans whole
  · have none (log : List (Ticket η α)) : ofClient k c (ofQueue kind (h.era kind) log) = [] := by
      simp only [ofClient, ofQueue, List.filter_filter, List.filter_eq_nil_iff]
      intro t _ his
      simp only [Bool.and_eq_true, decide_eq_true_eq] at his
      exact hk (his.1.1.symm.trans his.2.1)
    rw [none, none]

/-- What those who register, offer and stop may rely on. -/
structure Delivered (handle : η → Handler α σ) (h : Hall η α σ) : Prop where
  numbered : ∀ kind era, ∃ n,
    (ofQueue kind era h.accepted).map (·.entry.sequence) = List.range n
  once : (h.passed.map Ticket.key).Nodup
  meant : h.passed ⊆ h.accepted
  inOrder : ∀ kind endpoint,
    (ofClient kind endpoint h.passed).Sublist (ofClient kind endpoint h.accepted)
  closes : ∀ kind event, event.Closes kind → (h.step handle event).Closed kind (h.era kind) ∧
    (h.step handle event).passed = h.passed
  closed : ∀ kind era, h.Closed kind era → ∀ events,
    ofQueue kind era (h.run handle events).passed = ofQueue kind era h.passed
  all : ∀ kind b, h.binding kind = some b → ¬ b.queue.stopped → b.queue.Idle →
    (ofQueue kind (h.era kind) h.passed).Perm (ofQueue kind (h.era kind) h.accepted)

theorem Recorded.once (ok : h.Recorded) : (h.passed.map Ticket.key).Nodup := by
  have apart : (h.accepted.map Ticket.key).Nodup := by
    refine nodup_key fun k e => ?_
    obtain ⟨n, numbers⟩ := ok.ranges k e
    rw [numbers]
    exact List.nodup_range
  obtain ⟨log, perm, sub⟩ := ok.subperm
  exact (perm.map _).nodup_iff.mp (apart.sublist (sub.map _))

theorem run_delivered (handle : η → Handler α σ) (state : σ) (events : List (Event η α σ)) :
    ((start state).run handle events).Delivered handle := by
  have ok : ((start state).run handle events).Recorded := run_recorded (start_recorded state) events
  exact {
    numbered := ok.ranges
    once := ok.once
    meant := ok.subperm.subset
    inOrder := fun k c => (List.sublist_append_left _ _).trans (ok.inOrder k c)
    closes := fun _ _ => step_closed
    closed := fun _ _ => run_closed_passed ok
    all := fun _ _ => ok.all_passed }

def clerk (name : String) : Handler String (List String) :=
  fun e notes => ({ succeeded := e.item ≠ "" }, notes ++ [name ++ e.item])

/-- One of two workers takes a batch and deals with it. Then its handler gives way to another, which is
offered one more; what waits for the first is not passed on. -/
def errands : List (Event String String (List String)) :=
  [.register .command "day " { workers := 2, batch := 2 }, .enqueue .command ⟨1⟩ "a",
    .enqueue .command ⟨2⟩ "b", .enqueue .command ⟨1⟩ "", .enqueue .command ⟨1⟩ "c",
    .take .command 1, .serve .command 1, .serve .command 1, .register .command "night " {},
    .enqueue .command ⟨1⟩ "d", .takeRetired 0 0, .serveRetired 0 0, .take .command 0,
    .serve .command 0]

theorem errands_delivered :
    let h := (start []).run clerk errands
    h.state = ["day a", "day ", "night d"] ∧
      h.accepted.map (·.entry.item) = ["a", "b", "", "c", "d"] ∧
      (ofClient .command ⟨1⟩ h.passed).Sublist (ofClient .command ⟨1⟩ h.accepted) ∧
      (∃ b, h.binding .command = some b ∧ b.queue.handled = 1 ∧ b.queue.Idle) ∧
      (ofQueue .command 2 h.passed).Perm (ofQueue .command 2 h.accepted) ∧
      ∀ events, (ofQueue .command 1 (h.run clerk events).passed).map (·.entry.item) = ["a", ""] := by
  intro h
  have delivered : h.Delivered clerk := run_delivered clerk [] errands
  have bound : (h.binding .command).map
      (fun b => (b.queue.stopped, b.queue.handled, decide b.queue.Idle)) = some (false, 1, true) := by
    decide +kernel
  obtain ⟨b, found, parts⟩ := Option.map_eq_some_iff.mp bound
  obtain ⟨running, handled, idle⟩ : b.queue.stopped = false ∧ b.queue.handled = 1 ∧ b.queue.Idle := by
    simpa using parts
  have closed : h.Closed .command 1 := ⟨by decide +kernel, fun _ now => absurd now (by decide +kernel)⟩
  refine ⟨by decide +kernel, by decide +kernel, delivered.inOrder .command ⟨1⟩,
    ⟨b, found, handled, idle⟩, ?_, fun events => ?_⟩
  · exact delivered.all .command b found (by simp [running]) idle
  · rw [delivered.closed .command 1 closed events]
    decide +kernel

end SharedWorld.Hall
