import SharedWorld.Proofs.World.Removal

/-! What can be asked of a world, one thing after another. A request that is refused changes nothing
that one element knows of another. -/
namespace SharedWorld

/-- A change to the transform or the own state of an element, not to its relations. -/
structure Edit where
  apply : Element → Element
  tame : Element.Tame apply

namespace Store
variable {s t : Store}

inductive Op
  | insert (e : Element)
  | setParent (child parent : ElementId)
  | update (id : ElementId) (edit : Edit)
  | attachToTower (trailer : ElementId) (tower : Option ElementId)
  | detachTowed (tower : ElementId)
  | setDriver (vehicle : ElementId) (driver : Option ElementId)
  | leaveVehicle (player : ElementId)
  | seatPassenger (vehicle player : ElementId)
  | attach (element target : ElementId) (position rotation : Vec3)
  | detach (element : ElementId)
  | propagate (target : ElementId)

/-- The store after an answer: a refusal leaves it as it was. -/
def after (s : Store) : Except WorldError Store → Store
  | .ok t => t
  | .error _ => s

def perform (s : Store) : Op → Store
  | .insert e => (s.insert e).2
  | .setParent child parent => s.after (s.setParent child parent)
  | .update id edit => s.after (s.update id edit.apply)
  | .attachToTower trailer tower => s.after ((s.attachToTower trailer tower).map (·.2))
  | .detachTowed tower => s.after ((s.detachTowed tower).map (·.2))
  | .setDriver vehicle driver => s.after (s.setDriver vehicle driver)
  | .leaveVehicle player => s.after ((s.leaveVehicle player).map (·.2))
  | .seatPassenger vehicle player => s.after (s.seatPassenger vehicle player)
  | .attach element target position rotation => s.after (s.attach element target position rotation)
  | .detach element => s.after ((s.detach element).map (·.2))
  | .propagate target => (s.propagate target).2

theorem after_cases {P : Store → Prop} {answer : Except WorldError Store} (refused : P s)
    (done : ∀ t, answer = .ok t → P t) : P (s.after answer) := by
  cases answer with
  | error err => exact refused
  | ok t => exact done t rfl

theorem after_map_cases {α : Type} {P : Store → Prop} {answer : Except WorldError (α × Store)}
    (refused : P s) (done : ∀ a t, answer = .ok (a, t) → P t) :
    P (s.after (answer.map (·.2))) := by
  cases answer with
  | error err => exact refused
  | ok x => exact done x.1 x.2 rfl

/-- A reference that is new does not close a ring. -/
def Clear (s : Store) (tie : Tie) (a : ElementId) (b : Option ElementId) : Prop :=
  ∀ w, b = some w → s.Refers tie a w ∨ ¬ reaches (s.reference? tie) a (s.size + 1) w

/-- What an operation can make of the references in a linked store. -/
inductive Effect (s t : Store) : Prop
  | quiet (h : Quiet s t)
  | placed (id : ElementId) (type : ElementType) (h : Placed s id type t)
  | moved (child parent : ElementId) (notRoot : child ≠ s.root)
      (apart : ∀ n, climb s.parent? n parent ≠ some child)
      (h : Rewired s t (s.relink .parent child (some parent)))
  | relinked (tie : Tie) (kind : tie = .target ∨ tie = .towedBy) (a : ElementId)
      (b : Option ElementId) (clear : s.Clear tie a b) (h : Rewired s t (s.relink tie a b))
  | redriven (vehicle : ElementId) (driver : Option ElementId)
      (live : s.type? vehicle = some .vehicle) (h : Rewired s t (s.redrive vehicle driver))
  | ridden (player : ElementId) (vehicle : Option ElementId)
      (live : ∀ v, vehicle = some v → s.type? v = some .vehicle)
      (h : Rewired s t (s.ride player vehicle))

theorem perform_effect (ok : s.Linked) (op : Op) : Effect s (s.perform op) := by
  have refused : Effect s s := .quiet (Quiet.refl s)
  cases op with
  | insert e =>
    rcases insert_cases s ok.root_live e with h | ⟨id, h⟩
    · exact .quiet h
    · exact .placed id _ h
  | setParent child parent =>
    refine after_cases refused fun t h => ?_
    obtain ⟨notRoot, _, apart, h⟩ := setParent_rewired ok h
    exact .moved child parent notRoot apart h
  | update id edit =>
    refine after_cases refused fun t h => ?_
    exact .quiet (update_rewired h (modify_quiet edit.tame s id))
  | attachToTower trailer tower =>
    refine after_map_cases refused fun _ t h => ?_
    have clear : s.Clear .towedBy trailer tower := fun w hw => attachToTower_clear (hw ▸ h)
    exact .relinked .towedBy (.inr rfl) trailer tower clear (attachToTower_rewired ok h)
  | detachTowed tower =>
    refine after_map_cases refused fun _ t h => ?_
    rcases detachTowed_cases h with rfl | ⟨trailer, _, h⟩
    · exact refused
    · exact .relinked .towedBy (.inr rfl) trailer none nofun (attachToTower_rewired ok h)
  | setDriver vehicle driver =>
    refine after_cases refused fun t h => ?_
    obtain ⟨live, h⟩ := setDriver_rewired ok h
    exact .redriven vehicle driver live h
  | leaveVehicle player =>
    exact after_map_cases refused fun _ t h =>
      .ridden player none nofun (leaveVehicle_rewired ok h)
  | seatPassenger vehicle player =>
    refine after_cases refused fun t h => ?_
    obtain ⟨live, h⟩ := seatPassenger_rewired ok h
    exact .ridden player (some vehicle) (fun v hv => by cases hv; exact live) h
  | attach element target position rotation =>
    refine after_cases refused fun t h => ?_
    have clear : s.Clear .target element (some target) := fun w hw =>
      .inr (Option.some.inj hw ▸ attach_clear h)
    exact .relinked .target (.inl rfl) element (some target) clear (attach_rewired ok h)
  | detach element =>
    exact after_map_cases refused fun _ t h =>
      .relinked .target (.inl rfl) element none nofun (detach_rewired ok h)
  | propagate target => exact .quiet (propagate_quiet s target)

theorem Effect.linked (h : Effect s t) (ok : s.Linked) : t.Linked := by
  cases h with
  | quiet h => exact ok.of_quiet h
  | placed id type h => exact ok.of_placed h
  | moved child parent notRoot apart h => exact ok.of_moved notRoot apart h
  | relinked tie kind a b _ h =>
    have hr : tie ≠ .seat ∧ tie ≠ .driver := by rcases kind with rfl | rfl <;> decide
    refine ok.of_rewired h (relink_answered ok hr) fun a b => ?_
    rcases kind with rfl | rfl <;> exact Iff.rfl
  | redriven vehicle driver _ h =>
    refine ok.of_rewired h (fun {tie a b} ht hab => ?_) fun _ _ => Iff.rfl
    cases tie with
    | driver =>
      rcases hab with ⟨rfl, hb⟩ | ⟨ha, hab, hb⟩
      · exact .inl ⟨hb, rfl⟩
      · refine .inr ⟨hb, ok.seat_of_driver hab, fun hv => ha ?_⟩
        exact (ok.seat_of_driver hab).unique (ok.seat_of_driver hv) (by decide)
    | seat => exact absurd rfl ht
    | _ => exact ok.answered ht hab
  | ridden player vehicle _ h =>
    refine ok.of_rewired h (fun {tie a b} ht hab => ?_) fun _ _ => Iff.rfl
    cases tie with
    | driver => exact .inr ⟨hab.2, ok.seat_of_driver hab.1⟩
    | seat => exact absurd rfl ht
    | _ => exact ok.answered ht hab

theorem Effect.root (h : Effect s t) : t.root = s.root := by
  cases h with
  | placed id type h => exact h.root
  | quiet h | moved _ _ _ _ h | relinked _ _ _ _ _ h | redriven _ _ _ h | ridden _ _ _ h =>
    exact h.root

def Reshaped (s t : Store) : Prop := ∃ id e old new, s.find? id = some e ∧ e.kind = .shape old ∧
  t = s.modify id fun e => { e with kind := .shape new }

theorem Reshaped.quiet (h : Reshaped s t) : Quiet s t := by
  obtain ⟨id, e, old, new, he, hk, rfl⟩ := h
  refine modify_quiet_at he ?_ fun tie b => ?_
  · simp [Element.type, hk, ElementKind.type]
  · cases tie <;> simp [Element.Refers, hk, ElementKind.reference?, Element.target?]

end Store

open Store

namespace World

inductive Op
  | store (op : Store.Op)
  | remove (id : ElementId)
  | watch (id : ElementId) (watcher : Watcher)
  | unwatch (id : ElementId) (sub : SubscriptionId)
  | createShape (geometry : Shape) (position : Vec3)
  | register (shape : ElementId)
  | forget (shape : ElementId)
  | setEnabled (shape : ElementId) (enabled : Bool)
  | onCrossing (shape : ElementId) (crossing : Crossing) (tag : String)
  | unsubscribe (shape : ElementId) (sub : SubscriptionId)
  | check (shape element : ElementId)
  | checkEverywhere (element : ElementId)
  | runPass
  | addVertex (shape : ElementId) (p : Vec2) (index : Option Nat)
  | setVertex (shape : ElementId) (index : Nat) (p : Vec2)
  | removeVertex (shape : ElementId) (index : Nat)

def after (w : World) : Except WorldError World → World
  | .ok w' => w'
  | .error _ => w

def perform (w : World) : Op → World
  | .store op => { w with store := w.store.perform op }
  | .remove id => (w.remove id).2
  | .watch id watcher => (w.watch id watcher).2
  | .unwatch id sub => (w.unwatch id sub).2
  | .createShape geometry position => (w.createShape geometry position).2
  | .register shape => (w.register shape).2
  | .forget shape => (w.forget shape).2
  | .setEnabled shape enabled => w.after (w.setEnabled shape enabled)
  | .onCrossing shape crossing tag => w.after ((w.onCrossing shape crossing tag).map (·.2))
  | .unsubscribe shape sub => (w.unsubscribe shape sub).2
  | .check shape element => (w.check shape element).2
  | .checkEverywhere element => (w.checkEverywhere element).2
  | .runPass => w.runPass.2
  | .addVertex shape p index => w.after ((w.addVertex shape p index).map (·.2))
  | .setVertex shape index p => w.after (w.setVertex shape index p)
  | .removeVertex shape index => w.after ((w.removeVertex shape index).map (·.2))

def run (w : World) (ops : List Op) : World := ops.foldl perform w

theorem run_run (w : World) (ops ops' : List Op) : (w.run ops).run ops' = w.run (ops ++ ops') :=
  List.foldl_append.symm

def fresh (cellSize : Single) (ids : IdSource) (root : ElementId) : World :=
  { store := withRoot cellSize ids root }

theorem after_cases {P : World → Prop} {w : World} {answer : Except WorldError World}
    (refused : P w) (done : ∀ u, answer = .ok u → P u) : P (w.after answer) := by
  cases answer with
  | error err => exact refused
  | ok u => exact done u rfl

theorem after_map_cases {α : Type} {P : World → Prop} {w : World}
    {answer : Except WorldError (α × World)} (refused : P w)
    (done : ∀ a u, answer = .ok (a, u) → P u) : P (w.after (answer.map (·.2))) := by
  cases answer with
  | error err => exact refused
  | ok x => exact done x.1 x.2 rfl

theorem setEnabled_alike {w w' : World} {shape : ElementId} {enabled : Bool}
    (h : w.setEnabled shape enabled = .ok w') : Alike w.store w'.store := by
  obtain ⟨z, _, h⟩ := bind_eq_ok.mp h
  cases h
  exact Alike.refl _

theorem onCrossing_alike {w w' : World} {shape : ElementId} {crossing : Crossing} {tag : String}
    {sub : SubscriptionId} (h : w.onCrossing shape crossing tag = .ok (sub, w')) :
    Alike w.store w'.store := by
  unfold onCrossing at h
  rw [bind_eq_ok] at h
  obtain ⟨z, _, h⟩ := h
  dsimp only at h
  split at h <;> cases h
  exact Alike.refl _

theorem unsubscribe_alike (w : World) (shape : ElementId) (sub : SubscriptionId) :
    Alike w.store (w.unsubscribe shape sub).2.store := by
  unfold unsubscribe
  split
  · exact Alike.refl _
  · split <;> exact Alike.refl _

theorem editPolygon_reshaped {w w' : World} {shape : ElementId} {index : Nat}
    {edit : List Vec2 → Except WorldError (Nat × List Vec2)}
    (h : w.editPolygon shape edit = .ok (index, w')) : Reshaped w.store w'.store := by
  unfold editPolygon at h
  split at h
  · cases h
  next e he =>
  split at h
  · cases h
  next geometry hg =>
  split at h
  · cases h
  rw [bind_eq_ok] at h
  obtain ⟨edited, _, h⟩ := h
  cases h
  have hk : e.kind = .shape geometry := by
    unfold Element.shape? at hg
    split at hg
    · next hk => rwa [Option.some.inj hg] at hk
    · cases hg
  exact ⟨shape, e, geometry, _, he, hk, rfl⟩

theorem setVertex_edits {w w' : World} {shape : ElementId} {index : Nat} {p : Vec2}
    (h : w.setVertex shape index p = .ok w') : ∃ edit i, w.editPolygon shape edit = .ok (i, w') := by
  obtain ⟨x, edited, rfl⟩ := map_eq_ok.mp h
  exact ⟨_, x.1, edited⟩

theorem removeVertex_edits {w w' : World} {shape : ElementId} {index : Nat} {p : Vec2}
    (h : w.removeVertex shape index = .ok (p, w')) :
    ∃ edit i, w.editPolygon shape edit = .ok (i, w') := by
  unfold removeVertex at h
  obtain ⟨vertices, _, h⟩ := bind_eq_ok.mp h
  obtain ⟨x, edited, h⟩ := bind_eq_ok.mp h
  cases h
  exact ⟨_, x.1, edited⟩

theorem createShape_alike (w : World) (geometry : Shape) (position : Vec3) :
    Alike (w.store.perform (.insert { kind := .shape geometry, position }))
      (w.createShape geometry position).2.store := by
  have inserted (w' : World) (answer)
      (h : w.insert { kind := .shape geometry, position } = (answer, w')) :
      w'.store = w.store.perform (.insert { kind := .shape geometry, position }) := by
    cases h
    rfl
  unfold createShape
  split
  · next h =>
    rw [inserted _ _ h]
    exact Alike.refl _
  · next id w' h =>
    have kept := register_alike w' id
    rw [inserted _ _ h] at kept
    split
    · next hr =>
      rw [hr] at kept
      exact kept
    · next hr =>
      rw [hr] at kept
      exact kept

/-- The request is an operation on the store, or begins with one. -/
def Op.Stores : Op → Prop
  | .store _ | .createShape _ _ => True
  | _ => False

theorem perform_removes_or_reshapes (w : World) {op : Op} (other : ¬ op.Stores) :
    Removals w.store (w.perform op).store ∨ Reshaped w.store (w.perform op).store := by
  have refused : Alike w.store w.store := Alike.refl _
  have edited {answer : Except WorldError World}
      (done : ∀ u, answer = .ok u → Reshaped w.store u.store) :
      Removals w.store (w.after answer).store ∨ Reshaped w.store (w.after answer).store :=
    after_cases (P := fun u => Removals w.store u.store ∨ Reshaped w.store u.store)
      (.inl (.alike refused)) fun u h => .inr (done u h)
  have edited_map {α : Type} {answer : Except WorldError (α × World)}
      (done : ∀ a u, answer = .ok (a, u) → Reshaped w.store u.store) :
      Removals w.store (w.after (answer.map (·.2))).store ∨
        Reshaped w.store (w.after (answer.map (·.2))).store :=
    after_map_cases (P := fun u => Removals w.store u.store ∨ Reshaped w.store u.store)
      (.inl (.alike refused)) fun a u h => .inr (done a u h)
  cases op with
  | store sop => exact absurd trivial other
  | createShape geometry position => exact absurd trivial other
  | remove id => exact .inl (removeWithin_removals _ id w).1
  | watch id watcher => exact .inl (.alike (watch_alike w id watcher))
  | unwatch id sub => exact .inl (.alike (unwatch_alike w id sub))
  | register shape => exact .inl (.alike (register_alike w shape))
  | forget shape => exact .inl (.alike (forget_alike w shape))
  | setEnabled shape enabled =>
    exact .inl (.alike (after_cases (P := fun u => Alike w.store u.store) refused
      fun _ => setEnabled_alike))
  | onCrossing shape crossing tag =>
    exact .inl (.alike (after_map_cases (P := fun u => Alike w.store u.store) refused
      fun _ _ => onCrossing_alike))
  | unsubscribe shape sub => exact .inl (.alike (unsubscribe_alike w shape sub))
  | check shape element => exact .inl (.alike (check_alike w shape element))
  | checkEverywhere element => exact .inl (.alike (checkAll_alike _ w))
  | runPass => exact .inl (.alike (runPass_alike w))
  | addVertex shape p index => exact edited_map fun _ _ => editPolygon_reshaped
  | setVertex shape index p =>
    refine edited fun _ h => ?_
    obtain ⟨_, _, h⟩ := setVertex_edits h
    exact editPolygon_reshaped h
  | removeVertex shape index =>
    refine edited_map fun _ _ h => ?_
    obtain ⟨_, _, h⟩ := removeVertex_edits h
    exact editPolygon_reshaped h

theorem perform_cases (w : World) (op : Op) :
    Removals w.store (w.perform op).store ∨
      (∃ sop, Alike (w.store.perform sop) (w.perform op).store) ∨
      Reshaped w.store (w.perform op).store := by
  cases op with
  | store sop => exact .inr (.inl ⟨sop, Alike.refl _⟩)
  | createShape geometry position => exact .inr (.inl ⟨_, createShape_alike w geometry position⟩)
  | _ => exact (perform_removes_or_reshapes w id).imp_right .inr

theorem perform_effect {w : World} (ok : w.store.Linked) (op : Op) :
    Removals w.store (w.perform op).store ∨ ∃ t, Effect w.store t ∧ Quiet t (w.perform op).store := by
  rcases perform_cases w op with h | ⟨sop, h⟩ | h
  · exact .inl h
  · exact .inr ⟨_, Store.perform_effect ok sop, h.quiet⟩
  · exact .inr ⟨_, .quiet h.quiet, Quiet.refl _⟩

theorem perform_linked {w : World} (ok : w.store.Linked) (op : Op) :
    (w.perform op).store.Linked ∧ (w.perform op).store.root = w.store.root := by
  rcases perform_effect ok op with h | ⟨t, out, h⟩
  · exact ⟨h.linked ok, h.root⟩
  · exact ⟨(out.linked ok).of_quiet h, h.root.trans out.root⟩

theorem run_linked {w : World} (ok : w.store.Linked) (ops : List Op) :
    (w.run ops).store.Linked ∧ (w.run ops).store.root = w.store.root := by
  induction ops generalizing w with
  | nil => exact ⟨ok, rfl⟩
  | cons op ops ih =>
    have first := perform_linked ok op
    have rest := ih first.1
    exact ⟨rest.1, rest.2.trans first.2⟩

theorem fresh_linked (cellSize : Single) (ids : IdSource) (root : ElementId) :
    (fresh cellSize ids root).store.Linked := Linked.withRoot cellSize ids root

/-- Whatever is asked of a world, and whether or not it is refused, the elements remain one tree
below the same root. -/
theorem run_isTree (cellSize : Single) (ids : IdSource) (root : ElementId) (ops : List Op) :
    ((fresh cellSize ids root).run ops).store.IsTree ∧
      ((fresh cellSize ids root).run ops).store.root = root := by
  have kept := run_linked (fresh_linked cellSize ids root) ops
  exact ⟨kept.1.isTree, kept.2⟩

end World
end SharedWorld
