import SharedWorld.Listeners
import Mathlib.Data.List.Nodup

/-! A registry and its listeners. While a listener runs it may do anything to the registry that called
it but emit. The log has all that happens, in order, and says who is registered. -/
namespace SharedWorld.Listeners
variable {κ α : Type}

structure Sorted (l : Listeners κ) : Prop where
  below : ∀ e ∈ l.entries, e.1.number < l.next
  ascending : l.entries.Pairwise fun a b => a.1.number < b.1.number

namespace Sorted
variable {l : Listeners κ}

theorem empty : Sorted ({} : Listeners κ) := ⟨nofun, .nil⟩

theorem subscribe (h : l.Sorted) (listener : κ) : (l.subscribe listener).2.Sorted := by
  unfold Listeners.subscribe
  split
  · exact h
  · refine ⟨fun e he => ?_, List.pairwise_append.mpr
      ⟨h.ascending, List.pairwise_singleton .., fun a ha b hb => ?_⟩⟩
    · rcases List.mem_append.mp he with he | he
      · exact Nat.lt_succ_of_lt (h.below e he)
      · cases List.mem_singleton.mp he
        exact Nat.lt_succ_self _
    · cases List.mem_singleton.mp hb
      exact h.below a ha

theorem unsubscribe (h : l.Sorted) (id : SubscriptionId) : (l.unsubscribe id).2.Sorted :=
  ⟨fun e he => h.below e (List.mem_filter.mp he).1, h.ascending.filter _⟩

theorem close (h : l.Sorted) : l.close.2.Sorted := by
  unfold Listeners.close
  split
  · exact h
  · exact ⟨nofun, .nil⟩

theorem nodup (h : l.Sorted) : (l.entries.map (·.1)).Nodup :=
  List.pairwise_map.mpr (h.ascending.imp fun lt same =>
    absurd (congrArg SubscriptionId.number same) (Nat.ne_of_lt lt))

theorem unique (h : l.Sorted) {id : SubscriptionId} {k k' : κ} (hk : (id, k) ∈ l.entries)
    (hk' : (id, k') ∈ l.entries) : k = k' :=
  congrArg Prod.snd (List.inj_on_of_nodup_map h.nodup hk hk' rfl)

end Sorted

/-- What happens: requests with their answers, and calls of listeners. -/
inductive Deed (κ α : Type)
  | subscribed (listener : κ) (answer : Option SubscriptionId)
  | unsubscribed (id : SubscriptionId) (found : Bool)
  | emitted (value : α)
  | closed (value : α) (first : Bool)
  | called (listener : κ) (value : α)
deriving DecidableEq

/-- What a listener does while it runs, which goes on according to the answers that it gets. -/
inductive Course (κ α : Type)
  | done
  | subscribe (listener : κ) (next : Option SubscriptionId → Course κ α)
  | unsubscribe (id : SubscriptionId) (next : Bool → Course κ α)
  | close (value : α) (next : Bool → Course κ α)

structure Stage (κ α : Type) where
  registry : Listeners κ := {}
  log : List (Deed κ α) := []

namespace Stage

def note (deed : Deed κ α) (s : Stage κ α) : Stage κ α := { s with log := s.log ++ [deed] }

def subscribe (listener : κ) (s : Stage κ α) : Stage κ α :=
  { s with registry := (s.registry.subscribe listener).2 }.note
    (.subscribed listener (s.registry.subscribe listener).1)

def unsubscribe (id : SubscriptionId) (s : Stage κ α) : Stage κ α :=
  { s with registry := (s.registry.unsubscribe id).2 }.note
    (.unsubscribed id (s.registry.unsubscribe id).1)

def close (value : α) (s : Stage κ α) : Stage κ α :=
  { s with registry := s.registry.close.2 }.note (.closed value s.registry.close.1.isSome)

/-- Goes through a course; `tell` is the delivery by the close that is the first. -/
def follow (tell : α → List κ → Stage κ α → Stage κ α) : Course κ α → Stage κ α → Stage κ α
  | .done, s => s
  | .subscribe k next, s => follow tell (next (s.registry.subscribe k).1) (s.subscribe k)
  | .unsubscribe id next, s => follow tell (next (s.registry.unsubscribe id).1) (s.unsubscribe id)
  | .close v next, s => match s.registry.close.1 with
    | none => follow tell (next false) (s.close v)
    | some audience => follow tell (next true) (tell v audience (s.close v))

/-- What a listener does that is called with a value, which is the last thing that the log has. -/
abbrev Behaviour (κ α : Type) := List (Deed κ α) → κ → α → Course κ α

def deliver (b : Behaviour κ α) (run : Course κ α → Stage κ α → Stage κ α) (v : α) :
    List κ → Stage κ α → Stage κ α
  | [], s => s
  | k :: rest, s =>
    deliver b run v rest (run (b (s.note (.called k v)).log k v) (s.note (.called k v)))

def run (b : Behaviour κ α) : Course κ α → Stage κ α → Stage κ α :=
  -- a registry closes once, so inside the delivery by its close nobody else is told, see `run_eq`
  follow (deliver b (follow fun _ _ s => s))

/-- What comes to a registry from outside. -/
inductive Turn (κ α : Type)
  | act (course : Course κ α)
  | emit (value : α)

def turn (b : Behaviour κ α) (s : Stage κ α) : Turn κ α → Stage κ α
  | .act course => run b course s
  | .emit v => deliver b (run b) v s.registry.audience (s.note (.emitted v))

def past (b : Behaviour κ α) (turns : List (Turn κ α)) : Stage κ α := turns.foldl (turn b) {}

end Stage

def granted (log : List (Deed κ α)) : List SubscriptionId :=
  log.filterMap fun | .subscribed _ answer => answer | _ => none

def calls (log : List (Deed κ α)) : List (κ × α) :=
  log.filterMap fun | .called k v => some (k, v) | _ => none

@[simp] theorem granted_append (as bs : List (Deed κ α)) :
    granted (as ++ bs) = granted as ++ granted bs := List.filterMap_append

@[simp] theorem calls_append (as bs : List (Deed κ α)) : calls (as ++ bs) = calls as ++ calls bs :=
  List.filterMap_append

/-- What ends a subscription. -/
def Deed.Ends (id : SubscriptionId) : Deed κ α → Prop
  | .unsubscribed x found => x = id ∧ found = true
  | .closed _ first => first = true
  | _ => False

def Deed.Idle : Deed κ α → Prop
  | .subscribed _ answer => answer = none
  | .unsubscribed _ found => found = false
  | .closed _ first => first = false
  | _ => True

/-- The identifier was granted to the listener, and the subscription has not ended. -/
def Standing (log : List (Deed κ α)) (id : SubscriptionId) (k : κ) : Prop :=
  ∃ before after, log = before ++ .subscribed k (some id) :: after ∧ ∀ d ∈ after, ¬ d.Ends id

theorem split_snoc {d e : Deed κ α} {log before after : List (Deed κ α)} :
    log ++ [e] = before ++ d :: after ↔
      (after = [] ∧ before = log ∧ d = e) ∨ ∃ rest, after = rest ++ [e] ∧ log = before ++ d :: rest := by
  constructor
  · intro h
    rcases List.eq_nil_or_concat after with rfl | ⟨rest, x, rfl⟩
    · obtain ⟨rfl, last⟩ := List.append_inj' h rfl
      exact .inl ⟨rfl, rfl, by simpa using last.symm⟩
    · have h' : log ++ [e] = (before ++ d :: rest) ++ [x] := by simpa using h
      obtain ⟨rfl, last⟩ := List.append_inj' h' rfl
      exact .inr ⟨rest, by simpa using last.symm, rfl⟩
  · rintro (⟨rfl, rfl, rfl⟩ | ⟨rest, rfl, rfl⟩)
    · rfl
    · simp

theorem standing_snoc {log : List (Deed κ α)} {e : Deed κ α} {id : SubscriptionId} {k : κ} :
    Standing (log ++ [e]) id k ↔ e = .subscribed k (some id) ∨ Standing log id k ∧ ¬ e.Ends id := by
  simp only [Standing, split_snoc]
  constructor
  · rintro ⟨before, after, ⟨rfl, rfl, rfl⟩ | ⟨rest, rfl, rfl⟩, lasts⟩
    · exact .inl rfl
    · exact .inr ⟨⟨before, rest, rfl, fun d hd => lasts d (by simp [hd])⟩, lasts e (by simp)⟩
  · rintro (rfl | ⟨⟨before, after, rfl, lasts⟩, last⟩)
    · exact ⟨log, [], .inl ⟨rfl, rfl, rfl⟩, by simp⟩
    · refine ⟨before, after ++ [e], .inr ⟨after, rfl, rfl⟩, fun d hd => ?_⟩
      rcases List.mem_append.mp hd with hd | hd
      · exact lasts d hd
      · cases List.mem_singleton.mp hd
        exact last

namespace Stage
variable {s : Stage κ α}

/-- The registry is what its log says: identifiers are granted in ascending order, and registered are,
in that order, the subscriptions that have not ended. Once it is closed nothing more is granted. -/
structure Kept (s : Stage κ α) : Prop where
  granted : granted s.log = (List.range s.registry.next).map SubscriptionId.mk
  sorted : s.registry.Sorted
  registered : ∀ id k, (id, k) ∈ s.registry.entries ↔ Standing s.log id k
  closed : s.registry.closed ↔ ∃ v, .closed v true ∈ s.log
  empty : s.registry.closed → s.registry.entries = []
  shut : ∀ v before after, s.log = before ++ .closed v true :: after →
    ∀ d ∈ after, (∀ k id, d ≠ .subscribed k (some id)) ∧ ∀ w, d ≠ .closed w true

theorem Kept.shut_snoc (ok : s.Kept) {e : Deed κ α}
    (h : s.registry.closed → (∀ k id, e ≠ .subscribed k (some id)) ∧ ∀ w, e ≠ .closed w true)
    (v : α) (before after : List (Deed κ α)) (split : s.log ++ [e] = before ++ .closed v true :: after) :
    ∀ d ∈ after, (∀ k id, d ≠ .subscribed k (some id)) ∧ ∀ w, d ≠ .closed w true := by
  rcases split_snoc.mp split with ⟨rfl, -, -⟩ | ⟨rest, rfl, before⟩
  · simp
  · intro d hd
    rcases List.mem_append.mp hd with hd | hd
    · exact ok.shut _ _ _ before d hd
    · cases List.mem_singleton.mp hd
      exact h (ok.closed.mpr ⟨v, by simp [before]⟩)

theorem Kept.note (ok : s.Kept) {d : Deed κ α} (idle : d.Idle) : (s.note d).Kept := by
  have stays (id : SubscriptionId) (k : κ) : Standing (s.log ++ [d]) id k ↔ Standing s.log id k := by
    rw [standing_snoc]
    cases d <;> simp_all [Deed.Idle, Deed.Ends]
  refine { ok with
    granted := ?_, registered := fun id k => (ok.registered id k).trans (stays id k).symm,
    closed := ?_, shut := ok.shut_snoc fun _ => ?_ }
  · have none : Listeners.granted [d] = [] := by cases d <;> simp_all [Deed.Idle, Listeners.granted]
    simp [Stage.note, none, ok.granted]
  · cases d <;> simp_all [Deed.Idle, Stage.note, ok.closed]
  · cases d <;> simp_all [Deed.Idle]

theorem subscribe_shut (h : s.registry.closed) (k : κ) :
    s.subscribe k = s.note (.subscribed k none) := by
  simp [Stage.subscribe, Listeners.subscribe, h]

theorem close_shut (h : s.registry.closed) (v : α) : s.close v = s.note (.closed v false) := by
  simp [Stage.close, Listeners.close, h]

theorem close_first (h : s.registry.closed = false) (v : α) : s.close v =
    { s with registry := { s.registry with closed := true, entries := [] } }.note (.closed v true) := by
  simp [Stage.close, Listeners.close, h]

theorem Kept.subscribe (ok : s.Kept) (k : κ) : (s.subscribe k).Kept := by
  cases h : s.registry.closed with
  | true =>
    rw [subscribe_shut h]
    exact ok.note rfl
  | false =>
    have sorted := ok.sorted.subscribe k
    have eq : s.subscribe k = { s with registry :=
        { s.registry with
          next := s.registry.next + 1
          entries := s.registry.entries ++ [(SubscriptionId.mk s.registry.next, k)] } }.note
        (.subscribed k (some ⟨s.registry.next⟩)) := by
      simp [Stage.subscribe, Listeners.subscribe, h]
    rw [Listeners.subscribe, h] at sorted
    rw [eq]
    refine ⟨?_, ⟨sorted.below, sorted.ascending⟩, fun id k' => ?_, ?_,
      fun now => absurd now (by simp [Stage.note, h]), ok.shut_snoc fun now => absurd now (by simp [h])⟩
    · rw [Stage.note, granted_append, ok.granted, List.range_succ, List.map_append]
      rfl
    · simp only [Stage.note, List.mem_append, List.mem_singleton, ok.registered, standing_snoc,
        Prod.mk.injEq, Deed.subscribed.injEq, Option.some.injEq, Deed.Ends, not_false_iff, and_true]
      tauto
    · simp [Stage.note, ok.closed]

theorem Kept.unsubscribe (ok : s.Kept) (id : SubscriptionId) : (s.unsubscribe id).Kept := by
  cases found : (s.registry.unsubscribe id).1 with
  | false =>
    have others : ∀ e ∈ s.registry.entries, e.1 ≠ id := by simpa [Listeners.unsubscribe] using found
    have eq : s.unsubscribe id = s.note (.unsubscribed id false) := by
      rw [Stage.unsubscribe, found, Listeners.unsubscribe,
        List.filter_eq_self.mpr fun e he => by simpa using others e he]
    rw [eq]
    exact ok.note rfl
  | true =>
    have eq : s.unsubscribe id = { s with registry :=
        { s.registry with entries := s.registry.entries.filter (fun e => e.1 ≠ id) } }.note
        (.unsubscribed id true) := by
      rw [Stage.unsubscribe, found]
      rfl
    rw [eq]
    refine ⟨?_, ok.sorted.unsubscribe id, fun x k => ?_, ?_, fun h => ?_,
      ok.shut_snoc fun _ => by simp⟩
    · rw [Stage.note, granted_append, ok.granted]
      exact List.append_nil _
    · simp only [Stage.note, List.mem_filter, ok.registered, standing_snoc, Deed.Ends, reduceCtorEq,
        false_or, and_true, decide_eq_true_eq, ne_comm]
    · simp [Stage.note, ok.closed]
    · simp [Stage.note, ok.empty h]

theorem Kept.close (ok : s.Kept) (v : α) : (s.close v).Kept := by
  cases h : s.registry.closed with
  | true =>
    rw [close_shut h]
    exact ok.note rfl
  | false =>
    rw [close_first h]
    refine ⟨?_, ⟨nofun, .nil⟩, fun id k => ?_, ?_, fun _ => rfl,
      ok.shut_snoc fun now => absurd now (by simp [h])⟩
    · rw [Stage.note, granted_append, ok.granted]
      exact List.append_nil _
    · simp [Stage.note, standing_snoc, Deed.Ends]
    · simp [Stage.note]

end Stage
end SharedWorld.Listeners
