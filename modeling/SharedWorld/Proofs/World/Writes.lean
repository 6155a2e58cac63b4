import Mathlib.Logic.Relation
import SharedWorld.Proofs.World.Run

/-! What an operation on the store is made of: writes to one element at a time, which either leave it
where it is, or move it and tell the spatial index. Elements come only by being placed and go only by
being evicted. -/
namespace SharedWorld

namespace Element

def Stays (f : Element → Element) : Prop := ∀ e, (f e).type = e.type ∧ (f e).position = e.position

theorem stays_updateVehicle (g : Vehicle → Vehicle) : Stays (updateVehicle g) := by
  rintro ⟨kind⟩
  cases kind <;> exact ⟨rfl, rfl⟩

theorem stays_updatePlayer (g : Player → Player) : Stays (updatePlayer g) := by
  rintro ⟨kind⟩
  cases kind <;> exact ⟨rfl, rfl⟩

theorem stays_parent (new : Option ElementId) : Stays ({ · with parent := new }) :=
  fun _ => ⟨rfl, rfl⟩

theorem stays_addChild (id : ElementId) : Stays (addChild id) := fun _ => ⟨rfl, rfl⟩

theorem stays_dropChild (id : ElementId) : Stays (dropChild id) := fun _ => ⟨rfl, rfl⟩

theorem stays_attachment (new : Option Attachment) : Stays ({ · with attachment := new }) :=
  fun _ => ⟨rfl, rfl⟩

theorem stays_addAttached (id : ElementId) : Stays (addAttached id) := fun _ => ⟨rfl, rfl⟩

theorem stays_dropAttached (id : ElementId) : Stays (dropAttached id) := fun _ => ⟨rfl, rfl⟩

end Element

open Element

namespace Store
variable {s t : Store}

inductive Write (s : Store) : Store → Prop
  | edit {id : ElementId} {f : Element → Element} (stays : ∀ e, s.find? id = some e →
      (f e).type = e.type ∧ (f e).position = e.position) : Write s (s.modify id f)
  | move {id : ElementId} {f : Element → Element} {t : Store} (type : ∀ e, (f e).type = e.type)
      (h : s.update id f = .ok t) : Write s t

abbrev Writes : Store → Store → Prop := Relation.ReflTransGen Write

theorem Write.type? (h : Write s t) (a : ElementId) : t.type? a = s.type? a := by
  have changed {id : ElementId} {f : Element → Element}
      (type : ∀ e, s.find? id = some e → (f e).type = e.type)
      (find : t.find? a = if a = id then (s.find? a).map f else s.find? a) :
      t.type? a = s.type? a := by
    unfold Store.type?
    rw [find]
    split
    · next ha =>
      subst ha
      cases he : s.find? a with
      | none => rfl
      | some e => exact congrArg some (type e he)
    · rfl
  cases h with
  | edit stays => exact changed (fun e he => (stays e he).1) (find?_modify ..)
  | move type h => exact changed (fun e _ => type e) (find?_update h a)

theorem Writes.type? (h : Writes s t) (a : ElementId) : t.type? a = s.type? a := by
  induction h with
  | refl => rfl
  | tail _ write ih => exact (write.type? a).trans ih

theorem modify_writes {f : Element → Element} (stays : Stays f) (s : Store)
    (id : ElementId) : Writes s (s.modify id f) := .single (.edit fun e _ => stays e)

theorem modifyAll_writes {f : Element → Element} (stays : Stays f) (ids : List ElementId)
    (s : Store) : Writes s (s.modifyAll ids f) := by
  induction ids generalizing s with
  | nil => exact .refl
  | cons id ids ih => exact (modify_writes stays s id).trans (ih _)

theorem setParent_writes {child parent : ElementId} (h : s.setParent child parent = .ok t) :
    Writes s t := by
  unfold setParent at h
  repeat' split at h
  all_goals cases h
  · exact .refl
  · refine .trans ?_ (modify_writes (stays_parent _) _ child)
    refine .trans ?_ (modify_writes (stays_addChild _) _ parent)
    exact modifyAll_writes (stays_dropChild _) _ s

theorem retow_writes (s : Store) (trailer : ElementId) (old tower displaced : Option ElementId) :
    Writes s (s.retow trailer old tower displaced) := by
  refine .trans ?_ (modify_writes (stays_updateVehicle _) _ trailer)
  refine .trans ?_ (modifyAll_writes (stays_updateVehicle _) tower.toList _)
  refine .trans ?_ (modifyAll_writes (stays_updateVehicle _) displaced.toList _)
  exact modifyAll_writes (stays_updateVehicle _) old.toList s

theorem attachToTower_cases {trailer : ElementId} {tower : Option ElementId} {answer : Bool}
    (h : s.attachToTower trailer tower = .ok (answer, t)) :
    t = s ∨ ∃ old displaced, t = s.retow trailer old tower displaced := by
  unfold attachToTower at h
  obtain ⟨v, _, h⟩ := bind_eq_ok.mp h
  dsimp only at h
  split at h
  · cases h
    exact .inl rfl
  · cases tower with
    | none =>
      cases h
      exact .inr ⟨_, _, rfl⟩
    | some w =>
      obtain ⟨pulling, _, h⟩ := bind_eq_ok.mp h
      split at h <;> cases h
      exact .inr ⟨_, _, rfl⟩

theorem attachToTower_writes {trailer : ElementId} {tower : Option ElementId} {answer : Bool}
    (h : s.attachToTower trailer tower = .ok (answer, t)) : Writes s t := by
  rcases attachToTower_cases h with rfl | ⟨old, displaced, rfl⟩
  · exact .refl
  · exact retow_writes ..

theorem detachTowed_writes {tower : ElementId} {answer : Option ElementId}
    (h : s.detachTowed tower = .ok (answer, t)) : Writes s t := by
  rcases detachTowed_cases h with rfl | ⟨trailer, changed, h⟩
  · exact .refl
  · exact attachToTower_writes h

theorem reseat_writes (s : Store) (vehicle : ElementId) (old previous driver : Option ElementId) :
    Writes s (s.reseat vehicle old previous driver) := by
  refine .trans ?_ (modifyAll_writes (stays_updatePlayer _) driver.toList _)
  refine .trans ?_ (modify_writes (stays_updateVehicle _) _ vehicle)
  refine .trans ?_ (modifyAll_writes (stays_updateVehicle _) _ _)
  exact modifyAll_writes (stays_updatePlayer _) _ s

theorem setDriver_writes {vehicle : ElementId} {driver : Option ElementId}
    (h : s.setDriver vehicle driver = .ok t) : Writes s t := by
  unfold setDriver at h
  obtain ⟨v, _, h⟩ := bind_eq_ok.mp h
  cases driver with
  | none =>
    simp only [pure_bind] at h
    split at h <;> cases h
    · exact .refl
    · exact reseat_writes ..
  | some player =>
    dsimp only at h
    obtain ⟨p, _, h⟩ := bind_eq_ok.mp h
    simp only [pure_bind] at h
    split at h <;> cases h
    · exact .refl
    · exact reseat_writes ..

theorem update_writes {id : ElementId} {f : Element → Element} (type : ∀ e, (f e).type = e.type)
    (h : s.update id f = .ok t) : Writes s t := .single (.move type h)

theorem leaveVehicle_writes {player : ElementId} {answer : Option ElementId}
    (h : s.leaveVehicle player = .ok (answer, t)) : Writes s t := by
  unfold leaveVehicle at h
  obtain ⟨p, _, h⟩ := bind_eq_ok.mp h
  split at h
  · cases h
    exact .refl
  · next v _ =>
    obtain ⟨vehicle, _, h⟩ := bind_eq_ok.mp h
    dsimp only at h
    split at h
    · obtain ⟨t', ht, h⟩ := bind_eq_ok.mp h
      cases h
      exact setDriver_writes ht
    · obtain ⟨t', ht, h⟩ := bind_eq_ok.mp h
      cases h
      exact update_writes (fun e => (stays_updatePlayer _ e).1) ht

theorem seatPassenger_writes {vehicle player : ElementId}
    (h : s.seatPassenger vehicle player = .ok t) : Writes s t := by
  unfold seatPassenger at h
  obtain ⟨v, _, h⟩ := bind_eq_ok.mp h
  obtain ⟨p, _, h⟩ := bind_eq_ok.mp h
  dsimp only at h
  split at h
  · cases h
    exact .refl
  · split at h
    · exact update_writes (fun e => (stays_updatePlayer _ e).1) h
    · rw [bind_map_left] at h
      obtain ⟨left, hl, h⟩ := bind_eq_ok.mp h
      exact (leaveVehicle_writes hl).trans
        (update_writes (fun e => (stays_updatePlayer _ e).1) h)

theorem follow_writes {targetId id : ElementId} {target : Element}
    (h : s.follow targetId target id = some t) : Writes s t := by
  simp only [follow, Option.bind_eq_bind, Option.bind_eq_some_iff] at h
  obtain ⟨e, _, a, _, h⟩ := h
  split at h
  · cases hu : s.update id (placed target a) with
    | error => simp [hu, Except.toOption] at h
    | ok s' =>
      simp only [hu, Except.toOption, Option.some.injEq] at h
      subst h
      exact update_writes (tame_placed target a).type hu
  · cases h

theorem followAll_writes (targetId : ElementId) (target : Element) (ids : List ElementId)
    (s : Store) : Writes s (s.followAll targetId target ids).2 := by
  induction ids generalizing s with
  | nil => exact .refl
  | cons id rest ih =>
    unfold followAll
    split
    · exact ih s
    · next s' hs => exact (follow_writes hs).trans (ih s')

theorem propagateFrom_writes (n : Nat) (visited : IdSet) (waiting : List ElementId) (moved : Nat)
    (s : Store) : Writes s (propagateFrom n visited waiting moved s).2 := by
  induction n generalizing visited waiting moved s with
  | zero => exact .refl
  | succ n ih =>
    cases waiting with
    | nil => exact .refl
    | cons current waiting =>
      unfold propagateFrom
      split
      · exact ih _ _ _ _
      · split
        · exact ih _ _ _ _
        · next e _ => exact (followAll_writes current e e.attached.toList s).trans (ih _ _ _ _)

theorem propagate_writes (s : Store) (target : ElementId) : Writes s (s.propagate target).2 :=
  propagateFrom_writes ..

theorem attach_writes {element target : ElementId} {position rotation : Vec3}
    (h : s.attach element target position rotation = .ok t) : Writes s t := by
  unfold attach at h
  repeat' split at h
  all_goals cases h
  refine .trans ?_ (propagate_writes _ target)
  refine .trans ?_ (modify_writes (stays_attachment _) _ element)
  refine .trans ?_ (modify_writes (stays_addAttached _) _ target)
  exact modifyAll_writes (stays_dropAttached _) _ s

theorem detach_writes {element : ElementId} {answer : Bool}
    (h : s.detach element = .ok (answer, t)) : Writes s t := by
  unfold detach at h
  repeat' split at h
  all_goals cases h
  · exact .refl
  · next target _ =>
    exact (modify_writes (stays_dropAttached _) s target).trans
      (modify_writes (stays_attachment _) _ element)

theorem inserts_or_writes (s : Store) (op : Op) :
    (∃ e, op = .insert e) ∨ Writes s (s.perform op) := by
  have refused : Writes s s := .refl
  cases op with
  | insert e => exact .inl ⟨e, rfl⟩
  | setParent child parent => exact .inr (after_cases refused fun _ => setParent_writes)
  | update id edit => exact .inr (after_cases refused fun _ => update_writes edit.tame.type)
  | attachToTower trailer tower =>
    exact .inr (after_map_cases refused fun _ _ => attachToTower_writes)
  | detachTowed tower => exact .inr (after_map_cases refused fun _ _ => detachTowed_writes)
  | setDriver vehicle driver => exact .inr (after_cases refused fun _ => setDriver_writes)
  | leaveVehicle player => exact .inr (after_map_cases refused fun _ _ => leaveVehicle_writes)
  | seatPassenger vehicle player => exact .inr (after_cases refused fun _ => seatPassenger_writes)
  | attach element target position rotation =>
    exact .inr (after_cases refused fun _ => attach_writes)
  | detach element => exact .inr (after_map_cases refused fun _ _ => detach_writes)
  | propagate target => exact .inr (propagateFrom_writes _ _ _ _ _)

/-- An operation takes identifiers from their source, places one new element, or writes to those
that are there. -/
theorem perform_writes (s : Store) (op : Op) : (∃ ids, s.perform op = { s with ids }) ∨
    (∃ ids id e, ¬ s.contains id ∧ e.type ≠ .root ∧ s.perform op = { s with ids }.place id e) ∨
    Writes s (s.perform op) := by
  rcases inserts_or_writes s op with ⟨e, rfl⟩ | written
  · simp only [perform, insert]
    split
    · exact .inl ⟨s.ids, rfl⟩
    · next type =>
      split
      · next ids _ => exact .inl ⟨ids, rfl⟩
      · next id ids hid => exact .inr (.inl ⟨ids, id, e, assignId_free hid, type, rfl⟩)
  · exact .inr (.inr written)

theorem unlink_writes (s : Store) (id : ElementId) (e : Element) : Writes s (s.unlink id e) := by
  have adopted (ids : List ElementId) (s : Store) : Writes s (ids.foldl adopt s) := by
    induction ids generalizing s with
    | nil => exact .refl
    | cons i ids ih =>
      refine .trans ?_ (ih _)
      exact (modify_writes (stays_parent _) s i).trans (modify_writes (stays_addChild _) _ s.root)
  have unhung : Writes s (s.unhang id e) :=
    (modifyAll_writes (stays_dropChild _) e.parent.toList s).trans (adopted _ _)
  have untied (s : Store) : Writes s (s.untie id e) :=
    (modifyAll_writes (stays_dropAttached _) e.target?.toList s).trans
      (modifyAll_writes (stays_attachment _) e.attached.toList _)
  have vacated (s : Store) : Writes s (s.vacate id e) := by
    unfold vacate
    split
    · next v _ =>
      refine .trans ?_ (modifyAll_writes (stays_updatePlayer _) v.driver.toList _)
      refine .trans ?_ (modifyAll_writes (stays_updateVehicle _) v.towedBy.toList _)
      exact modifyAll_writes (stays_updateVehicle _) v.towing.toList s
    · next p _ => exact modifyAll_writes (stays_updateVehicle _) p.vehicle.toList s
    · exact .refl
  exact (unhung.trans (untied _)).trans (vacated _)

end Store
end SharedWorld
