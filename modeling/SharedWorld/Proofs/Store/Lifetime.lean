import SharedWorld.Proofs.Store.Linked

/-! What the coming and going of an element makes of the references in a linked store. -/
namespace SharedWorld.Store
variable {s t : Store} {id : ElementId}

theorem released_refers (e : Element) (id root : ElementId) (tie : Tie) (b : ElementId) :
    Element.Refers { e.released with id, parent := some root } tie b ↔ tie = .parent ∧ b = root := by
  cases tie with
  | child | attached =>
    simpa [Element.Refers, Element.released] using IdSet.not_mem_empty b
  | _ =>
    cases hk : e.kind <;> simp [Element.Refers, Element.released, hk, Element.target?,
      ElementKind.reference?, Vehicle.reference?, Player.reference?, eq_comm]

theorem released_type (e : Element) (id : ElementId) (parent : Option ElementId) :
    Element.type { e.released with id, parent } = e.type := by
  cases hk : e.kind <;> simp [Element.type, Element.released, hk, ElementKind.type]

theorem find?_place (s : Store) (id a : ElementId) (e : Element) :
    (s.place id e).find? a = if a = id then some { e.released with id, parent := some s.root }
      else (s.modify s.root (·.addChild id)).find? a := by
  unfold find? place
  dsimp only
  rw [Table.find?_insert]
  split <;> rfl

/-- One element more, which hangs below the root and refers to nothing else. -/
structure Placed (s : Store) (id : ElementId) (type : ElementType) (t : Store) : Prop where
  free : ¬ s.contains id
  root : t.root = s.root
  type? : ∀ a, t.type? a = if a = id then some type else s.type? a
  refers : ∀ tie a b, t.Refers tie a b ↔ s.Refers tie a b ∨
    (tie = .parent ∧ a = id ∧ b = s.root) ∨ (tie = .child ∧ a = s.root ∧ b = id)

theorem place_placed (s : Store) (live : s.contains s.root) (free : ¬ s.contains id) (e : Element) :
    Placed s id e.type (s.place id e) where
  free := free
  root := rfl
  type? a := by
    unfold type?
    rw [find?_place]
    split
    · exact congrArg some (released_type ..)
    · exact (modify_adds (Element.adds_addChild id) s s.root).type? a
  refers tie a b := by
    have grown := (modify_adds (Element.adds_addChild id) s s.root).refers tie a b
    by_cases ha : a = id
    · subst ha
      have unknown : ¬ s.Refers tie a b := fun h => free h.contains
      have other : a ≠ s.root := fun h => free (h ▸ live)
      rw [refers_of_find? (by rw [find?_place, if_pos rfl]), released_refers]
      simp [unknown, other]
    · have same : (s.place id e).Refers tie a b ↔
          (s.modify s.root (·.addChild id)).Refers tie a b := by
        simp only [Refers, find?_place, if_neg ha]
      rw [same, grown]
      simp only [live, true_and, ha, false_and, and_false, false_or]
      tauto

theorem freshId_free {n : Nat} {ids ids' : IdSource} (h : s.freshId n ids = (.ok id, ids')) :
    ¬ s.contains id := by
  induction n generalizing ids with
  | zero => cases h
  | succ n ih =>
    unfold freshId at h
    split at h
    · cases h
    · split at h
      · exact ih h
      · next hfree =>
        cases h
        exact hfree

theorem assignId_free {wanted : ElementId} {ids : IdSource}
    (h : s.assignId wanted = (.ok id, ids)) : ¬ s.contains id := by
  unfold assignId at h
  split at h
  · split at h
    · cases h
    · next hfree =>
      cases h
      exact hfree
  · exact freshId_free h

theorem insert_cases (s : Store) (live : s.contains s.root) (e : Element) :
    Quiet s (s.insert e).2 ∨ ∃ id, Placed s id e.type (s.insert e).2 := by
  have renamed (ids : IdSource) : Quiet s { s with ids } := { Quiet.refl s with }
  unfold insert
  split
  · exact .inl (Quiet.refl s)
  · split
    · exact .inl (renamed _)
    · next id ids hid =>
      have free : ¬ s.contains id := assignId_free hid
      have placed := place_placed { s with ids } live free e
      exact .inr ⟨id, { placed with }⟩

theorem adopt_rewired (ids : List ElementId) (s : Store) (live : s.contains s.root) :
    Rewired s (ids.foldl adopt s) fun tie a b =>
      (s.Refers tie a b ∧ ¬ (a ∈ ids ∧ tie = .parent)) ∨
        (a ∈ ids ∧ tie = .parent ∧ s.contains a ∧ b = s.root) ∨
        (tie = .child ∧ a = s.root ∧ b ∈ ids) := by
  induction ids generalizing s with
  | nil => exact (Quiet.refl s).congr (by simp)
  | cons i ids ih =>
    have h1 := modify_sets (Element.sets_parent (some s.root)) s i
    have h2 : Rewired s (s.adopt i) _ := h1.trans (modify_adds (Element.adds_addChild i) _ s.root)
    refine (h2.trans (ih _ ((h2.contains s.root).mpr live))).congr fun tie a b => ?_
    rw [h2.refers, h2.contains, h2.root, h1.refers, h1.contains,
      canHold_of_contains (show Tie.parent.heldBy = none from rfl)]
    simp only [List.mem_cons, live, true_and, Option.some.injEq]
    clear h1 h2 ih
    cases tie with
    | parent =>
      by_cases ha : a = i
      · simp [ha]
        tauto
      · simp [ha]
    | child => simp; tauto
    | _ => simp

theorem unhang_rewired (ok : s.Linked) {e : Element} (he : s.find? id = some e) :
    Rewired s (s.unhang id e) fun tie a b => match tie with
      | .parent => (s.Refers .parent a b ∧ b ≠ id) ∨ (s.Refers .parent a id ∧ b = s.root)
      | .child => (s.Refers .child a b ∧ b ≠ id) ∨ (a = s.root ∧ s.Refers .child id b)
      | tie => s.Refers tie a b := by
  have h1 := modifyAll_cuts (Element.cuts_dropChild id) e.parent.toList s
  have live := (h1.contains s.root).mpr ok.root_live
  rw [← h1.root] at live
  have h2 : Rewired s (s.unhang id e) _ := h1.trans (adopt_rewired e.children.toList _ live)
  have hparent (b) : s.Refers .parent id b ↔ e.parent = some b := refers_of_find? he
  have hchild (b) : s.Refers .child id b ↔ b ∈ e.children := refers_of_find? he
  refine h2.congr fun tie a b => ?_
  rw [h1.refers, h1.contains, h1.root]
  simp only [Option.mem_toList, IdSet.mem_toList, ← hparent, ← hchild]
  clear h1 h2 live
  cases tie with
  | parent =>
    have one : s.Refers .parent a b → (s.Refers .parent a id ↔ b = id) := fun h =>
      h.refers_iff (by decide)
    have live : s.Refers .parent a id → s.contains a := Refers.contains
    simp [ok.child_iff]
    tauto
  | child =>
    have known : s.Refers .child a b → b = id → s.Refers .parent id a := fun h hb =>
      ok.child_iff.mp (hb ▸ h)
    simp
    tauto
  | _ => simp

theorem untie_rewired (s : Store) (id : ElementId) (e : Element) :
    Rewired s (s.untie id e) fun tie a b => s.Refers tie a b ∧
      ¬ (e.target? = some a ∧ tie = .attached ∧ b = id) ∧ ¬ (a ∈ e.attached ∧ tie = .target) := by
  have h1 := modifyAll_cuts (Element.cuts_dropAttached id) e.target?.toList s
  have h2 : Rewired s (s.untie id e) _ :=
    h1.trans (modifyAll_sets (Element.sets_target none) e.attached.toList _)
  refine h2.congr fun tie a b => ?_
  rw [h1.refers]
  simp [IdSet.mem_toList, and_assoc]

theorem vacate_rewired (s : Store) (id : ElementId) (e : Element) :
    Rewired s (s.vacate id e) fun tie a b => s.Refers tie a b ∧ match tie with
      | .driver => ¬ (e.Refers .seat a ∧ b = id)
      | .seat => ¬ (e.Refers .driver a ∧ b = id)
      | .towing => ¬ e.Refers .towedBy a
      | .towedBy => ¬ e.Refers .towing a
      | _ => True := by
  cases hk : e.kind with
  | vehicle v =>
    have h1 := modifyAll_sets (Element.sets_towedBy none) v.towing.toList s
    have h2 := h1.trans (modifyAll_sets (Element.sets_towing none) v.towedBy.toList _)
    have h3 := h2.trans (modifyAll_cuts (Element.cuts_seat id) v.driver.toList _)
    simp only [vacate, hk]
    refine h3.congr fun tie a b => ?_
    rw [h2.refers, h1.refers]
    cases tie <;> simp [Element.Refers, hk, ElementKind.reference?, Vehicle.reference?]
  | player p =>
    have h1 := modifyAll_cuts (Element.cuts_driver (some id)) p.vehicle.toList s
    simp only [vacate, hk]
    refine h1.congr fun tie a b => ?_
    cases tie <;> simp [Element.Refers, hk, ElementKind.reference?, Player.reference?]
  | _ =>
    simp only [vacate, hk]
    refine (Quiet.refl s).congr fun tie a b => ?_
    cases tie <;> simp [Element.Refers, hk, ElementKind.reference?]

/-- The references once nobody knows of `id` any more, but for passengers who sit in it. -/
def unlinked (s : Store) (id : ElementId) (tie : Tie) (a b : ElementId) : Prop :=
  match tie with
  | .parent => (s.Refers .parent a b ∧ b ≠ id) ∨ (s.Refers .parent a id ∧ b = s.root)
  | .child => (s.Refers .child a b ∧ b ≠ id) ∨ (a = s.root ∧ s.Refers .child id b)
  | .seat => s.Refers .seat a b ∧ ¬ (b = id ∧ s.Refers .driver id a)
  | tie => s.Refers tie a b ∧ b ≠ id

theorem unlink_rewired (ok : s.Linked) {e : Element} (he : s.find? id = some e) :
    Rewired s (s.unlink id e) (s.unlinked id) := by
  have h1 := unhang_rewired ok he
  have h2 := h1.trans (untie_rewired _ id e)
  have h3 : Rewired s (s.unlink id e) _ := h2.trans (vacate_rewired _ id e)
  have known (tie) (b) : e.Refers tie b ↔ s.Refers tie id b := (refers_of_find? he).symm
  have target (b) : e.target? = some b ↔ s.Refers .target id b := known .target b
  have attached (b) : b ∈ e.attached ↔ s.Refers .attached id b := known .attached b
  refine h3.congr fun tie a b => ?_
  rw [h2.refers, h1.refers]
  simp only [known, target, attached]
  clear h1 h2 h3
  cases tie with
  | parent | child => simp [unlinked]
  | target =>
    have held : s.Refers .target a b → (s.Refers .attached id a ↔ b = id) := fun h => by
      rw [ok.attached_iff, h.refers_iff (by decide)]
    simp [unlinked]
    tauto
  | attached =>
    have holds : s.Refers .attached a b → b = id → s.Refers .target id a := fun h hb =>
      ok.attached_iff.mp (hb ▸ h)
    simp [unlinked]
    tauto
  | driver =>
    have sits : s.Refers .driver a b → b = id → s.Refers .seat id a := fun h hb =>
      ok.seat_of_driver (hb ▸ h)
    simp [unlinked]
    tauto
  | seat => simp [unlinked, and_comm]
  | towing =>
    have pulled : s.Refers .towing a b → (s.Refers .towedBy id a ↔ b = id) := fun h => by
      rw [← ok.towing_iff, h.refers_iff (by decide)]
    simp [unlinked]
    tauto
  | towedBy =>
    have pulls : s.Refers .towedBy a b → (s.Refers .towing id a ↔ b = id) := fun h => by
      rw [ok.towing_iff, h.refers_iff (by decide)]
    simp [unlinked]
    tauto

/-- One element less, of which nobody knows but passengers. -/
structure Evicted (s : Store) (id : ElementId) (t : Store) : Prop where
  root : t.root = s.root
  type? : ∀ a, t.type? a = if a = id then none else s.type? a
  refers : ∀ tie a b, t.Refers tie a b ↔ a ≠ id ∧ s.unlinked id tie a b

theorem find?_evict {gone : Element} (h : s.evict id = some (gone, t)) :
    ∃ e, s.find? id = some e ∧ t.root = (s.unlink id e).root ∧
      ∀ a, t.find? a = if a = id then none else (s.unlink id e).find? a := by
  simp only [evict, Option.bind_eq_bind, Option.bind_eq_some_iff] at h
  obtain ⟨e, he, left, _, h⟩ := h
  cases h
  refine ⟨e, he, rfl, fun a => ?_⟩
  unfold find?
  rw [Table.find?_erase]
  split <;> rfl

theorem unlink_root (s : Store) (id : ElementId) (e : Element) : (s.unlink id e).root = s.root := by
  have adopted (ids : List ElementId) (s : Store) : (ids.foldl adopt s).root = s.root := by
    induction ids generalizing s with
    | nil => rfl
    | cons i ids ih => exact ih _
  unfold unlink
  rw [(vacate_rewired _ id e).root, (untie_rewired _ id e).root]
  exact (adopted _ _).trans (modifyAll_cuts (Element.cuts_dropChild id) _ s).root

theorem evict_root {gone : Element} (h : s.evict id = some (gone, t)) : t.root = s.root := by
  obtain ⟨e, _, root, _⟩ := find?_evict h
  exact root.trans (unlink_root s id e)

theorem evict_evicted (ok : s.Linked) {gone : Element} (h : s.evict id = some (gone, t)) :
    Evicted s id t := by
  obtain ⟨e, he, root, find⟩ := find?_evict h
  have out := unlink_rewired ok he
  refine ⟨root.trans out.root, fun a => ?_, fun tie a b => ?_⟩
  · rw [← out.type?]
    unfold type?
    rw [find]
    split <;> rfl
  · rw [← out.refers]
    unfold Refers
    rw [find]
    split <;> simp [*]

end SharedWorld.Store
