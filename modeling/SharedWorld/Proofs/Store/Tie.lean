import SharedWorld.Proofs.Table
import SharedWorld.Element

/-! How an element refers to others. There are eight ways; a change to an element cuts references of
one way, adds one, or sets the only one there is. -/
namespace SharedWorld

/-- The ways in which one element refers to another. -/
inductive Tie
  | parent | child | target | attached | driver | seat | towing | towedBy
deriving DecidableEq

namespace Tie

/-- How the other side refers back. Nothing refers back to one who merely sits in a vehicle. -/
def inverse : Tie → Tie
  | parent => child
  | child => parent
  | target => attached
  | attached => target
  | driver => seat
  | seat => driver
  | towing => towedBy
  | towedBy => towing

/-- The type that an element must have to refer in this way. -/
def heldBy : Tie → Option ElementType
  | seat => some .player
  | driver | towing | towedBy => some .vehicle
  | _ => none

def asksFor : Tie → Option ElementType
  | driver => some .player
  | seat | towing | towedBy => some .vehicle
  | _ => none

/-- An element refers to one other at most in this way. -/
def IsSingle (t : Tie) : Prop := t ≠ child ∧ t ≠ attached

instance (t : Tie) : Decidable t.IsSingle := inferInstanceAs (Decidable (_ ∧ _))

end Tie

def Vehicle.reference? (v : Vehicle) : Tie → Option ElementId
  | .driver => v.driver
  | .towing => v.towing
  | .towedBy => v.towedBy
  | _ => none

def Player.reference? (p : Player) : Tie → Option ElementId
  | .seat => p.vehicle
  | _ => none

def ElementKind.reference? (kind : ElementKind) (tie : Tie) : Option ElementId :=
  match kind with
  | .vehicle v => v.reference? tie
  | .player p => p.reference? tie
  | _ => none

namespace Element

def Refers (e : Element) (tie : Tie) (b : ElementId) : Prop :=
  match tie with
  | .parent => e.parent = some b
  | .child => b ∈ e.children
  | .target => e.target? = some b
  | .attached => b ∈ e.attached
  | tie => e.kind.reference? tie = some b

def reference? (e : Element) : Tie → Option ElementId
  | .parent => e.parent
  | .target => e.target?
  | tie => e.kind.reference? tie

theorem reference?_eq_some {e : Element} {tie : Tie} {b : ElementId} (single : tie.IsSingle) :
    e.reference? tie = some b ↔ e.Refers tie b := by
  cases tie with
  | child => exact absurd rfl single.1
  | attached => exact absurd rfl single.2
  | _ => exact Iff.rfl

theorem type_of_refers {e : Element} {tie : Tie} {b : ElementId} (h : e.Refers tie b) :
    tie.heldBy.all (· = e.type) := by
  cases e with | mk kind =>
  cases tie <;> cases kind <;>
    simp_all [Refers, Tie.heldBy, type, ElementKind.type, ElementKind.reference?,
      Vehicle.reference?, Player.reference?]

theorem refers_unique {e : Element} {tie : Tie} {b c : ElementId} (single : tie.IsSingle)
    (hb : e.Refers tie b) (hc : e.Refers tie c) : b = c := by
  cases tie with
  | child => exact absurd rfl single.1
  | attached => exact absurd rfl single.2
  | _ => exact Option.some.inj (hb.symm.trans hc)

/-- A change to an element that keeps its type and touches references of one way only; `there` tells
what those come to. -/
structure Changes (f : Element → Element) (t : Tie) (there : Element → ElementId → Prop) : Prop where
  type : ∀ e, (f e).type = e.type
  elsewhere : ∀ e tie b, tie ≠ t → ((f e).Refers tie b ↔ e.Refers tie b)
  there : ∀ e b, (f e).Refers t b ↔ there e b

abbrev Cuts (f : Element → Element) (t : Tie) (p : ElementId → Prop) : Prop :=
  Changes f t fun e b => e.Refers t b ∧ ¬ p b

abbrev Adds (f : Element → Element) (t : Tie) (new : ElementId) : Prop :=
  Changes f t fun e b => e.Refers t b ∨ b = new

abbrev Sets (f : Element → Element) (t : Tie) (new : Option ElementId) : Prop :=
  Changes f t fun e b => t.heldBy.all (· = e.type) ∧ new = some b

/-- A change that has nothing to do with others. -/
structure Tame (f : Element → Element) : Prop where
  type : ∀ e, (f e).type = e.type
  refers : ∀ e tie b, (f e).Refers tie b ↔ e.Refers tie b

section Tree

theorem cuts_dropChild (id : ElementId) : Cuts (dropChild id) .child (· = id) where
  type _ := rfl
  elsewhere e tie b h := by cases tie with | child => exact absurd rfl h | _ => rfl
  there _ _ := Table.mem_erase.trans and_comm

theorem adds_addChild (id : ElementId) : Adds (addChild id) .child id where
  type _ := rfl
  elsewhere e tie b h := by cases tie with | child => exact absurd rfl h | _ => rfl
  there _ _ := IdSet.mem_add.trans or_comm

theorem sets_parent (new : Option ElementId) : Sets ({ · with parent := new }) .parent new where
  type _ := rfl
  elsewhere e tie b h := by cases tie with | parent => exact absurd rfl h | _ => rfl
  there _ _ := by simp [Refers, Tie.heldBy]

end Tree

section Attachments

theorem cuts_dropAttached (id : ElementId) : Cuts (dropAttached id) .attached (· = id) where
  type _ := rfl
  elsewhere e tie b h := by cases tie with | attached => exact absurd rfl h | _ => rfl
  there _ _ := Table.mem_erase.trans and_comm

theorem adds_addAttached (id : ElementId) : Adds (addAttached id) .attached id where
  type _ := rfl
  elsewhere e tie b h := by cases tie with | attached => exact absurd rfl h | _ => rfl
  there _ _ := IdSet.mem_add.trans or_comm

theorem sets_target (new : Option Attachment) :
    Sets ({ · with attachment := new }) .target (new.map (·.target)) where
  type _ := rfl
  elsewhere e tie b h := by cases tie with | target => exact absurd rfl h | _ => rfl
  there _ _ := by simp [Refers, Tie.heldBy, target?]

end Attachments

section Vehicles
variable {g : Vehicle → Vehicle} {t : Tie}

theorem refers_updateVehicle (e : Element) (tie : Tie) (b : ElementId) :
    (e.updateVehicle g).Refers tie b ↔
      match e.kind with
      | .vehicle v => if tie.heldBy = some .vehicle then (g v).reference? tie = some b
          else e.Refers tie b
      | _ => e.Refers tie b := by
  cases e with | mk kind => cases kind <;> cases tie <;> rfl

theorem refers_of_vehicle {e : Element} {v : Vehicle} (h : e.kind = .vehicle v)
    (held : t.heldBy = some .vehicle) (b : ElementId) :
    e.Refers t b ↔ v.reference? t = some b := by
  cases t <;> simp_all [Refers, Tie.heldBy, ElementKind.reference?]

theorem changes_updateVehicle {there : Element → ElementId → Prop}
    (held : t.heldBy = some .vehicle)
    (elsewhere : ∀ v tie, tie ≠ t → (g v).reference? tie = v.reference? tie)
    (here : ∀ e v b, e.kind = .vehicle v → ((g v).reference? t = some b ↔ there e b))
    (other : ∀ e b, e.type ≠ .vehicle → ¬ there e b) : Changes (updateVehicle g) t there where
  type e := by cases e with | mk kind => cases kind <;> rfl
  elsewhere e tie b h := by
    rw [refers_updateVehicle]
    split
    · next v hv =>
      split
      · next held => rw [elsewhere v tie h, refers_of_vehicle hv held]
      · rfl
    · rfl
  there e b := by
    rw [refers_updateVehicle]
    split
    · next v hv => rw [if_pos held, here e v b hv]
    · next h =>
      have ht : e.type ≠ .vehicle := by
        intro ht
        cases hk : e.kind with
        | vehicle v => exact h v hk
        | _ => simp [type, hk, ElementKind.type] at ht
      refine iff_of_false (fun hr => ht ?_) (other e b ht)
      simpa [held, eq_comm] using type_of_refers hr

theorem sets_updateVehicle {new : Option ElementId} (held : t.heldBy = some .vehicle)
    (elsewhere : ∀ v tie, tie ≠ t → (g v).reference? tie = v.reference? tie)
    (there : ∀ v, (g v).reference? t = new) : Sets (updateVehicle g) t new :=
  changes_updateVehicle held elsewhere
    (fun e v b hv => by simp [there, held, type, hv, ElementKind.type])
    (fun e b ht h => ht (by simpa [held, eq_comm] using h.1))

theorem cuts_updateVehicle {p : ElementId → Prop} (held : t.heldBy = some .vehicle)
    (elsewhere : ∀ v tie, tie ≠ t → (g v).reference? tie = v.reference? tie)
    (there : ∀ v b, (g v).reference? t = some b ↔ v.reference? t = some b ∧ ¬ p b) :
    Cuts (updateVehicle g) t p :=
  changes_updateVehicle held elsewhere
    (fun e v b hv => by rw [there, refers_of_vehicle hv held])
    (fun e b ht h => ht (by simpa [held, eq_comm] using type_of_refers h.1))

theorem sets_driver (new : Option ElementId) :
    Sets (updateVehicle ({ · with driver := new })) .driver new :=
  sets_updateVehicle rfl
    (fun v tie h => by cases tie with | driver => exact absurd rfl h | _ => rfl) fun _ => rfl

theorem sets_towing (new : Option ElementId) :
    Sets (updateVehicle ({ · with towing := new })) .towing new :=
  sets_updateVehicle rfl
    (fun v tie h => by cases tie with | towing => exact absurd rfl h | _ => rfl) fun _ => rfl

theorem sets_towedBy (new : Option ElementId) :
    Sets (updateVehicle ({ · with towedBy := new })) .towedBy new :=
  sets_updateVehicle rfl
    (fun v tie h => by cases tie with | towedBy => exact absurd rfl h | _ => rfl) fun _ => rfl

theorem cuts_driver (old : Option ElementId) :
    Cuts (updateVehicle fun v => if v.driver = old then { v with driver := none } else v) .driver
      (some · = old) := by
  refine cuts_updateVehicle rfl (fun v tie h => ?_) (fun v b => ?_)
  · split
    · cases tie with | driver => exact absurd rfl h | _ => rfl
    · rfl
  · split
    · next hv => simp [Vehicle.reference?, ← hv, eq_comm]
    · next hv =>
      refine (and_iff_left_of_imp fun hb ho => hv ?_).symm
      exact hb.trans ho

theorem cuts_towing (old : ElementId) :
    Cuts (updateVehicle fun v => if v.towing = some old then { v with towing := none } else v)
      .towing (· = old) := by
  refine cuts_updateVehicle rfl (fun v tie h => ?_) (fun v b => ?_)
  · split
    · cases tie with | towing => exact absurd rfl h | _ => rfl
    · rfl
  · split
    · next hv => simp [Vehicle.reference?, hv, eq_comm]
    · next hv => exact (and_iff_left_of_imp fun hb (ho : b = old) => hv (ho ▸ hb)).symm

end Vehicles

section Players

theorem sets_seat (new : Option ElementId) :
    Sets (updatePlayer ({ · with vehicle := new })) .seat new where
  type e := by cases e with | mk kind => cases kind <;> rfl
  elsewhere e tie b h := by
    cases e with | mk kind =>
    cases tie with
    | seat => exact absurd rfl h
    | _ => cases kind <;> rfl
  there e b := by
    cases e with | mk kind => cases kind <;>
      simp [Refers, Tie.heldBy, ElementKind.reference?, Player.reference?, Vehicle.reference?,
        updatePlayer, type, ElementKind.type]

theorem cuts_seat (old : ElementId) :
    Cuts (updatePlayer fun p => if p.vehicle = some old then { p with vehicle := none } else p)
      .seat (· = old) where
  type e := by cases e with | mk kind => cases kind <;> rfl
  elsewhere e tie b h := by
    cases e with | mk kind =>
    cases tie with
    | seat => exact absurd rfl h
    | _ => cases kind with
      | player p => simp only [updatePlayer]; split <;> rfl
      | _ => rfl
  there e b := by
    cases e with | mk kind =>
    cases kind with
    | player p =>
      show (if p.vehicle = some old then { p with vehicle := none } else p).vehicle = some b ↔
        p.vehicle = some b ∧ ¬ b = old
      split
      · next hp => simp [hp, eq_comm]
      · next hp => exact (and_iff_left_of_imp fun hb (ho : b = old) => hp (ho ▸ hb)).symm
    | _ => simp [Refers, ElementKind.reference?, Vehicle.reference?, updatePlayer]

end Players

end Element

end SharedWorld
