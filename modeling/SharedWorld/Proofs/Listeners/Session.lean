import SharedWorld.Proofs.Listeners.Delivery
import SharedWorld.Listeners.Session
import Mathlib.Data.List.Induction

/-! Sessions of listeners that note what they hear and do one thing more. Where none of them emits,
a session is a course of stages. -/
namespace SharedWorld.Listeners
open Stage

inductive Action.Silent : Action → Prop
  | subscribe (tag : String) (follow : Option Action) (h : ∀ next ∈ follow, next.Silent) :
      Silent (.subscribe tag follow)
  | unsubscribe (made : Nat) : Silent (.unsubscribe made)
  | close (value : Int) : Silent (.close value)

/-- The course of a silent action; which subscription it takes back, the log says. -/
def Action.course (log : List (Deed Listener Int)) : Action → Course Listener Int
  | .subscribe tag follow => .subscribe ⟨tag, follow⟩ fun _ => .done
  | .unsubscribe made => match (granted log)[made]? with
    | none => .done
    | some id => .unsubscribe id fun _ => .done
  | .emit _ => .done
  | .close value => .close value fun _ => .done

def Action.turn (log : List (Deed Listener Int)) : Action → Turn Listener Int
  | .emit value => .emit value
  | action => .act (action.course log)

def Listener.behaviour : Behaviour Listener Int := fun log k _ => match k.follow with
  | none => .done
  | some action => action.course log

namespace Session

def heard (log : List Note) : List (String × Int) :=
  log.filterMap fun | .heard tag value => some (tag, value) | .nested _ => none

def past (actions : List Action) : Session := actions.foldl (fun s a => (s.step a).2) {}

/-- A session is at a stage: its registry is there, its listeners are silent, and those that heard
something were called with it. -/
structure At (s : Session) (t : Stage Listener Int) : Prop where
  kept : t.Kept
  registry : s.registry = t.registry
  made : s.made = granted t.log
  heard : heard s.log = (calls t.log).map fun c => (c.1.tag, c.2)
  silent : ∀ e ∈ t.registry.entries, ∀ a ∈ e.2.follow, a.Silent

variable {s : Session} {t : Stage Listener Int}

theorem At.hears (h : s.At t) (l : Listener) (v : Int) :
    (s.note (.heard l.tag v)).At (t.note (.called l v)) where
  kept := h.kept.note (d := .called l v) trivial
  registry := h.registry
  made := by simpa [Session.note, Stage.note, granted] using h.made
  heard := by simpa [Session.note, Stage.note, Session.heard, calls] using h.heard
  silent := h.silent

theorem At.nested (h : s.At t) (answer : Answer) : (s.note (.nested answer)).At t where
  kept := h.kept
  registry := h.registry
  made := h.made
  heard := by simpa [Session.note, Session.heard] using h.heard
  silent := h.silent

theorem At.audience (h : s.At t) : ∀ l ∈ t.registry.audience, ∀ a ∈ l.follow, a.Silent := by
  intro l hl
  obtain ⟨e, he, rfl⟩ := List.mem_map.mp hl
  exact h.silent e he

theorem At.subscribe (h : s.At t) (n : Nat) (l : Listener) (silent : ∀ a ∈ l.follow, a.Silent) :
    (perform n (.subscribe l.tag l.follow) s).2.At (t.subscribe l) := by
  have kept := h.kept.subscribe l
  cases closed : t.registry.closed with
  | true =>
    have refused : s.registry.subscribe l = (none, s.registry) := by
      rw [Listeners.subscribe, if_pos (h.registry ▸ closed)]
    have same : (perform n (.subscribe l.tag l.follow) s).2 = s := by simp only [perform, refused]
    rw [subscribe_shut closed] at kept ⊢
    rw [same]
    exact ⟨kept, h.registry, by simpa [Stage.note, granted] using h.made,
      by simpa [Stage.note, calls] using h.heard, h.silent⟩
  | false =>
    have made : (perform n (.subscribe l.tag l.follow) s).2 = { s with
        registry := (t.registry.subscribe l).2
        made := s.made ++ [SubscriptionId.mk t.registry.next] } := by
      simp [perform, Listeners.subscribe, h.registry, closed]
    rw [made]
    refine ⟨kept, rfl, ?_, ?_, fun e he => ?_⟩
    · simpa [Stage.subscribe, Listeners.subscribe, closed, Stage.note, granted] using h.made
    · simpa [Stage.subscribe, Stage.note, calls] using h.heard
    · simp only [Stage.subscribe, Listeners.subscribe, closed, Stage.note, Bool.false_eq_true,
        if_false, List.mem_append, List.mem_singleton] at he
      rcases he with he | rfl
      · exact h.silent e he
      · exact silent

theorem At.unsubscribe (h : s.At t) (n made : Nat) {tell} :
    (perform n (.unsubscribe made) s).2.At
      (follow tell (Action.course t.log (.unsubscribe made)) t) := by
  rw [perform, Action.course, ← h.made]
  cases s.made[made]? with
  | none => exact h
  | some id =>
    refine ⟨h.kept.unsubscribe id, congrArg (fun r => (r.unsubscribe id).2) h.registry, ?_, ?_,
      fun e he => h.silent e (List.mem_filter.mp he).1⟩
    · simpa [follow, Stage.unsubscribe, Stage.note, granted] using h.made
    · simpa [follow, Stage.unsubscribe, Stage.note, calls] using h.heard

theorem At.refused (h : s.At t) (n : Nat) (v : Int) (closed : t.registry.closed) :
    (perform n (.close v) s).2.At (t.close v) := by
  have same : (perform n (.close v) s).2 = s := by
    simp [perform, Listeners.close, h.registry, closed]
  have kept := h.kept.close v
  rw [close_shut closed] at kept ⊢
  rw [same]
  exact ⟨kept, h.registry, by simpa [Stage.note, granted] using h.made,
    by simpa [Stage.note, calls] using h.heard, h.silent⟩

theorem At.deliver (act : Action → Session → Answer × Session)
    {tell : Int → List Listener → Stage Listener Int → Stage Listener Int} (closed : Bool)
    (acts : ∀ a : Action, a.Silent → ∀ {s t}, At s t → (closed → t.registry.closed) →
      (act a s).2.At (follow tell (a.course t.log) t))
    (v : Int) (audience : List Listener) (silent : ∀ l ∈ audience, ∀ a ∈ l.follow, a.Silent)
    (h : s.At t) (begins : closed → t.registry.closed) : (Session.deliver act v audience s).At
      (Stage.deliver Listener.behaviour (follow tell) v audience t) := by
  induction audience generalizing s t with
  | nil => exact h
  | cons l rest ih =>
    have heard := h.hears l v
    have others := fun x hx => silent x (List.mem_cons_of_mem _ hx)
    rw [Session.deliver, Stage.deliver, Listener.behaviour]
    cases does : l.follow with
    | none => exact ih others heard begins
    | some a =>
      have acted := acts a (silent l List.mem_cons_self a does) heard begins
      refine ih others (acted.nested _) fun shut => ?_
      exact (follow_shut tell tell _ (show (t.note (.called l v)).registry.closed from begins shut)).2

theorem At.act_shut {a : Action} (silent : a.Silent) (h : s.At t) (closed : t.registry.closed)
    (n : Nat) (tell : Int → List Listener → Stage Listener Int → Stage Listener Int) :
    (perform n a s).2.At (follow tell (a.course t.log) t) := by
  cases silent with
  | subscribe tag follow silent => exact h.subscribe n ⟨tag, follow⟩ silent
  | unsubscribe made => exact h.unsubscribe n made
  | close v =>
    have refused : t.registry.close.1 = none := by simp [Listeners.close, closed]
    rw [Action.course, follow, refused]
    exact h.refused n v closed

theorem At.act {a : Action} (silent : a.Silent) (h : s.At t) (n : Nat) :
    (perform (n + 1) a s).2.At (run Listener.behaviour (a.course t.log) t) := by
  cases silent with
  | subscribe tag follow silent => exact h.subscribe _ ⟨tag, follow⟩ silent
  | unsubscribe made => exact h.unsubscribe _ made
  | close v =>
    cases closed : t.registry.closed with
    | true => exact h.act_shut (.close v) closed _ _
    | false =>
      have closes : s.registry.close = (some t.registry.audience, (t.close v).registry) := by
        rw [h.registry]
        simp [Listeners.close, closed, Stage.close, Stage.note]
      have granted : t.registry.close.1 = some t.registry.audience := by
        simp [Listeners.close, closed]
      have shut : At { s with registry := (t.close v).registry } (t.close v) :=
        ⟨h.kept.close v, rfl, by simpa [Stage.close, Stage.note, Listeners.granted] using h.made,
          by simpa [Stage.close, Stage.note, calls] using h.heard,
          by simp [close_first closed, Stage.note]⟩
      have told := At.deliver (perform n) true
        (fun a silent _ _ h closed => h.act_shut silent (closed rfl) n fun _ _ s => s)
        v t.registry.audience h.audience shut fun _ => close_closed t v
      rw [perform, closes, run, Action.course, follow, granted]
      exact told

theorem At.step {a : Action} (calm : a.Silent ∨ ∃ v, a = .emit v) (h : s.At t) :
    (s.step a).2.At (t.turn Listener.behaviour (a.turn t.log)) := by
  rcases calm with silent | ⟨v, rfl⟩
  · have acts := h.act silent 999
    cases silent <;> exact acts
  · have emitted : At s (t.note (.emitted v)) :=
      ⟨h.kept.note (d := .emitted v) trivial, h.registry,
        by simpa [Stage.note, granted] using h.made,
        by simpa [Stage.note, calls] using h.heard, h.silent⟩
    have told := At.deliver (perform 999) false (fun a silent _ _ h _ => h.act silent 998) v
      t.registry.audience h.audience emitted fun shut => absurd shut Bool.false_ne_true
    rw [← h.registry] at told
    rw [Action.turn, turn, ← h.registry]
    exact told

end Session

def closing : List Action :=
  [.subscribe "a" (some (.subscribe "b" none)), .subscribe "c" (some (.close 7)), .subscribe "d" none,
    .emit 5]

end SharedWorld.Listeners
