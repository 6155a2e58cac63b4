import SharedWorld.Proofs.Store.Tie
import SharedWorld.World.Relations

/-! Who refers to whom in a store, and what a change to some of its elements makes of it. -/
namespace SharedWorld

theorem bind_eq_ok {ε α β : Type} {x : Except ε α} {f : α → Except ε β} {b : β} :
    x >>= f = .ok b ↔ ∃ a, x = .ok a ∧ f a = .ok b := by
  cases x <;> simp [bind, Except.bind]

theorem map_eq_ok {ε α β : Type} {x : Except ε α} {f : α → β} {b : β} :
    f <$> x = .ok b ↔ ∃ a, x = .ok a ∧ f a = b := by
  cases x <;> simp [Functor.map, Except.map]

namespace Store
variable {s t : Store}

def Refers (s : Store) (tie : Tie) (a b : ElementId) : Prop :=
  ∃ e, s.find? a = some e ∧ e.Refers tie b

/-- The element is there and of a type that can refer in this way. -/
def CanHold (s : Store) (tie : Tie) (a : ElementId) : Prop :=
  ∃ e, s.find? a = some e ∧ tie.heldBy.all (· = e.type)

theorem contains_iff {a : ElementId} : s.contains a ↔ ∃ e, s.find? a = some e := by
  simp [contains, Table.contains, find?, Option.isSome_iff_exists]

theorem contains_iff_type? {a : ElementId} : s.contains a ↔ ∃ type, s.type? a = some type := by
  simp [contains_iff, type?]

theorem Refers.contains {tie : Tie} {a b : ElementId} (h : s.Refers tie a b) : s.contains a :=
  contains_iff.mpr (h.imp fun _ he => he.1)

theorem Refers.canHold {tie : Tie} {a b : ElementId} (h : s.Refers tie a b) : s.CanHold tie a :=
  h.imp fun _ he => ⟨he.1, Element.type_of_refers he.2⟩

theorem Refers.unique {tie : Tie} {a b c : ElementId} (hb : s.Refers tie a b)
    (hc : s.Refers tie a c) (single : tie.IsSingle) : b = c := by
  obtain ⟨e, he, hb⟩ := hb
  obtain ⟨e', he', hc⟩ := hc
  cases he.symm.trans he'
  exact Element.refers_unique single hb hc

theorem Refers.refers_iff {tie : Tie} {a b c : ElementId} (h : s.Refers tie a b)
    (single : tie.IsSingle) : s.Refers tie a c ↔ b = c :=
  ⟨fun h' => h.unique h' single, fun hb => hb ▸ h⟩

def reference? (s : Store) (tie : Tie) (a : ElementId) : Option ElementId :=
  (s.find? a).bind (·.reference? tie)

theorem reference?_eq_some {tie : Tie} {a b : ElementId} (single : tie.IsSingle) :
    s.reference? tie a = some b ↔ s.Refers tie a b := by
  simp only [reference?, Option.bind_eq_some_iff, Element.reference?_eq_some single, Refers]

theorem reference?_eq_none {tie : Tie} {a : ElementId} (single : tie.IsSingle) :
    s.reference? tie a = none ↔ ∀ b, ¬ s.Refers tie a b := by
  simp only [← reference?_eq_some single]
  exact Option.eq_none_iff_forall_ne_some

theorem parent?_eq_some {a b : ElementId} : s.parent? a = some b ↔ s.Refers .parent a b :=
  Option.bind_eq_some_iff

theorem towedBy?_eq_reference? : s.towedBy? = s.reference? .towedBy := by
  have same (e : Element) : (e.vehicle?.bind fun v => v.towedBy) = e.reference? .towedBy := by
    cases e with | mk kind => cases kind <;> rfl
  funext a
  simp only [towedBy?, reference?, same]

theorem mem_children {a b : ElementId} : b ∈ s.children a ↔ s.Refers .child a b := by
  unfold children Refers
  cases s.find? a <;> simp [Element.Refers, IdSet.mem_toList]

/-- The elements of `s`, at the same places in the table and of the same types, whose references
are now as told. -/
structure Rewired (s t : Store) (refers : Tie → ElementId → ElementId → Prop) : Prop where
  root : t.root = s.root
  size : t.size = s.size
  type? : ∀ a, t.type? a = s.type? a
  refers : ∀ tie a b, t.Refers tie a b ↔ refers tie a b

/-- Nothing changes that one element knows of another. -/
abbrev Quiet (s t : Store) : Prop := Rewired s t s.Refers

namespace Rewired
variable {R : Tie → ElementId → ElementId → Prop}

theorem contains (h : Rewired s t R) (a : ElementId) : t.contains a ↔ s.contains a := by
  simp only [contains_iff_type?, h.type?]

theorem canHold (h : Rewired s t R) (tie : Tie) (a : ElementId) :
    t.CanHold tie a ↔ s.CanHold tie a := by
  have iff_type (s : Store) : s.CanHold tie a ↔ ∃ type, s.type? a = some type ∧
      tie.heldBy.all (· = type) := by
    simp [CanHold, Store.type?]
  rw [iff_type, iff_type, h.type?]

end Rewired

theorem Quiet.refl (s : Store) : Quiet s s := ⟨rfl, rfl, fun _ => rfl, fun _ _ _ => Iff.rfl⟩

theorem Rewired.trans {u : Store} {R Q : Tie → ElementId → ElementId → Prop}
    (h : Rewired s t R) (h' : Rewired t u Q) : Rewired s u Q where
  root := h'.root.trans h.root
  size := h'.size.trans h.size
  type? a := (h'.type? a).trans (h.type? a)
  refers := h'.refers

theorem Rewired.congr {R Q : Tie → ElementId → ElementId → Prop} (h : Rewired s t R)
    (same : ∀ tie a b, R tie a b ↔ Q tie a b) : Rewired s t Q :=
  { h with refers := fun tie a b => (h.refers tie a b).trans (same tie a b) }

theorem Quiet.trans {u : Store} (h : Quiet s t) (h' : Quiet t u) : Quiet s u :=
  (Rewired.trans h h').congr h.refers

theorem canHold_of_contains {tie : Tie} {a : ElementId} (held : tie.heldBy = none) :
    s.CanHold tie a ↔ s.contains a := by
  simp [CanHold, held, contains_iff]

theorem refers_of_find? {tie : Tie} {a b : ElementId} {e : Element} (h : s.find? a = some e) :
    s.Refers tie a b ↔ e.Refers tie b := by
  simp [Refers, h]

theorem find?_modify (s : Store) (i a : ElementId) (f : Element → Element) :
    (s.modify i f).find? a = if a = i then (s.find? a).map f else s.find? a := by
  unfold find? modify
  rw [Table.find?_modify_eq]
  split <;> simp [Function.comp_def]

theorem find?_update {i : ElementId} {f : Element → Element} (h : s.update i f = .ok t)
    (a : ElementId) : t.find? a = if a = i then (s.find? a).map f else s.find? a := by
  have modified : t.find? a = (s.modify i f).find? a := by
    unfold update at h
    split at h
    · cases h
    · dsimp only at h
      split at h <;> cases h <;> rfl
  rw [modified, find?_modify]

theorem contains_of_update {i : ElementId} {f : Element → Element} (h : s.update i f = .ok t) :
    s.contains i := by
  unfold update at h
  split at h
  · cases h
  · next e he => exact contains_iff.mpr ⟨e, he⟩

-- What a change to an element does not show in is seen of no element after it.
section View
variable {β : Type} {view : Element → β} {f : Element → Element}

theorem modify_view (same : ∀ e, view (f e) = view e) (s : Store) (i a : ElementId) :
    ((s.modify i f).find? a).map view = (s.find? a).map view := by
  rw [find?_modify]
  split
  · simp [Function.comp_def, same]
  · rfl

theorem modifyAll_view (same : ∀ e, view (f e) = view e) (ids : List ElementId) (s : Store)
    (a : ElementId) : ((s.modifyAll ids f).find? a).map view = (s.find? a).map view := by
  induction ids generalizing s with
  | nil => rfl
  | cons i ids ih => exact (ih _).trans (modify_view same s i a)

theorem update_view (same : ∀ e, view (f e) = view e) {i : ElementId} (h : s.update i f = .ok t)
    (a : ElementId) : (t.find? a).map view = (s.find? a).map view := by
  rw [find?_update h]
  split
  · simp [Function.comp_def, same]
  · rfl

end View

theorem modify_changes {f : Element → Element} {tie : Tie} {there : Element → ElementId → Prop}
    (h : Element.Changes f tie there) (s : Store) (i : ElementId) :
    Rewired s (s.modify i f) fun tie' a b =>
      if a = i ∧ tie' = tie then ∃ e, s.find? i = some e ∧ there e b else s.Refers tie' a b where
  root := rfl
  size := List.length_map ..
  type? a := by
    unfold type?
    rw [find?_modify]
    split
    · simp [Function.comp_def, h.type]
    · rfl
  refers tie' a b := by
    unfold Refers
    rw [find?_modify]
    by_cases ha : a = i
    · by_cases ht : tie' = tie
      · simp [ha, ht, h.there]
      · simp [ha, ht, h.elsewhere _ _ _ ht]
    · simp [ha]

section Modify
variable {f : Element → Element} {tie : Tie} {p : ElementId → Prop}

theorem modify_cuts (h : Element.Cuts f tie p) (s : Store) (i : ElementId) :
    Rewired s (s.modify i f) fun tie' a b => s.Refers tie' a b ∧ ¬ (a = i ∧ tie' = tie ∧ p b) := by
  have h := modify_changes h s i
  refine { h with refers := fun tie' a b => (h.refers tie' a b).trans ?_ }
  by_cases hi : a = i ∧ tie' = tie
  · obtain ⟨rfl, rfl⟩ := hi
    simp [Refers, ← and_assoc]
  · rw [if_neg hi]
    exact (and_iff_left fun h => hi ⟨h.1, h.2.1⟩).symm

theorem modify_adds {new : ElementId} (h : Element.Adds f tie new) (s : Store) (i : ElementId) :
    Rewired s (s.modify i f) fun tie' a b =>
      s.Refers tie' a b ∨ (s.contains i ∧ a = i ∧ tie' = tie ∧ b = new) := by
  have h := modify_changes h s i
  refine { h with refers := fun tie' a b => (h.refers tie' a b).trans ?_ }
  by_cases hi : a = i ∧ tie' = tie
  · obtain ⟨rfl, rfl⟩ := hi
    simp [Refers, contains_iff, and_or_left, exists_or]
  · rw [if_neg hi]
    exact (or_iff_left fun h => hi ⟨h.2.1, h.2.2.1⟩).symm

theorem modify_sets {new : Option ElementId} (h : Element.Sets f tie new) (s : Store)
    (i : ElementId) :
    Rewired s (s.modify i f) fun tie' a b =>
      (s.Refers tie' a b ∧ ¬ (a = i ∧ tie' = tie)) ∨
        (a = i ∧ tie' = tie ∧ s.CanHold tie a ∧ new = some b) := by
  have h := modify_changes h s i
  refine { h with refers := fun tie' a b => (h.refers tie' a b).trans ?_ }
  by_cases hi : a = i ∧ tie' = tie
  · obtain ⟨rfl, rfl⟩ := hi
    simp [CanHold, ← and_assoc]
  · rw [if_neg hi]
    tauto

theorem modifyAll_cuts (h : Element.Cuts f tie p) (ids : List ElementId) (s : Store) :
    Rewired s (s.modifyAll ids f) fun tie' a b =>
      s.Refers tie' a b ∧ ¬ (a ∈ ids ∧ tie' = tie ∧ p b) := by
  induction ids generalizing s with
  | nil => exact { Quiet.refl s with refers := fun tie' a b => by simp [modifyAll] }
  | cons i ids ih =>
    have first := modify_cuts h s i
    have rest := ih (s.modify i f)
    refine { first.trans rest with refers := fun tie' a b => (rest.refers tie' a b).trans ?_ }
    rw [first.refers, List.mem_cons]
    tauto

theorem modifyAll_sets {new : Option ElementId} (h : Element.Sets f tie new)
    (ids : List ElementId) (s : Store) :
    Rewired s (s.modifyAll ids f) fun tie' a b =>
      (s.Refers tie' a b ∧ ¬ (a ∈ ids ∧ tie' = tie)) ∨
        (a ∈ ids ∧ tie' = tie ∧ s.CanHold tie a ∧ new = some b) := by
  induction ids generalizing s with
  | nil => exact { Quiet.refl s with refers := fun tie' a b => by simp [modifyAll] }
  | cons i ids ih =>
    have first := modify_sets h s i
    have rest := ih (s.modify i f)
    refine { first.trans rest with refers := fun tie' a b => (rest.refers tie' a b).trans ?_ }
    rw [first.refers, first.canHold, List.mem_cons]
    tauto

theorem modify_quiet_at {i : ElementId} {e : Element} (he : s.find? i = some e)
    (type : (f e).type = e.type) (refers : ∀ tie b, (f e).Refers tie b ↔ e.Refers tie b) :
    Quiet s (s.modify i f) where
  root := rfl
  size := List.length_map ..
  type? a := by
    unfold type?
    rw [find?_modify]
    split
    · next ha => simp [ha, he, type]
    · rfl
  refers tie a b := by
    unfold Refers
    rw [find?_modify]
    split
    · next ha => simp [ha, he, refers]
    · rfl

theorem modify_quiet (h : Element.Tame f) (s : Store) (i : ElementId) : Quiet s (s.modify i f) := by
  refine (modify_cuts (p := fun _ => False) ⟨h.type, fun e tie b _ => h.refers e tie b,
    fun e b => (h.refers e .parent b).trans (by simp)⟩ s i).congr (by simp)

theorem update_rewired {i : ElementId} {R : Tie → ElementId → ElementId → Prop}
    (h : s.update i f = .ok t) (hm : Rewired s (s.modify i f) R) : Rewired s t R := by
  unfold update at h
  split at h
  · cases h
  · dsimp only at h
    split at h <;> cases h
    · exact hm
    · exact { hm with }

end Modify

end Store
end SharedWorld
