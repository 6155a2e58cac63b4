import SharedWorld.Proofs.World.Writes

/-! Who watches for the end of whom. Operations on elements leave every registry of watchers as it is;
a new element has one that is empty, and with an element its registry goes. -/
namespace SharedWorld
namespace Store
variable {s t : Store}

def watchers? (s : Store) (id : ElementId) : Option (Listeners Watcher) :=
  (s.residents.find? id).map (·.destroyed)

theorem contains_iff_watchers? {a : ElementId} :
    s.contains a ↔ ∃ l, s.watchers? a = some l := by
  simp [contains, Table.contains, watchers?, Option.isSome_iff_exists]

@[simp] theorem watchers?_modify (s : Store) (i a : ElementId) (f : Element → Element) :
    (s.modify i f).watchers? a = s.watchers? a := by
  unfold watchers? modify
  rw [Table.find?_modify_eq]
  split
  · simp [Function.comp_def]
  · rfl

theorem watchers?_modifyWatchers (s : Store) (i a : ElementId)
    (f : Listeners Watcher → Listeners Watcher) :
    (s.modifyWatchers i f).watchers? a = if a = i then (s.watchers? a).map f else s.watchers? a := by
  unfold watchers? modifyWatchers
  rw [Table.find?_modify_eq]
  split
  · simp [Function.comp_def]
  · rfl

theorem find?_modifyWatchers (s : Store) (i a : ElementId)
    (f : Listeners Watcher → Listeners Watcher) : (s.modifyWatchers i f).find? a = s.find? a :=
  (modifyWatchers_alike s i f).find? a

def SameWatchers (s t : Store) : Prop := ∀ id, t.watchers? id = s.watchers? id

theorem SameWatchers.trans {u : Store} (h : SameWatchers s t) (h' : SameWatchers t u) :
    SameWatchers s u := fun id => (h' id).trans (h id)

theorem Writes.watchers (h : Writes s t) : SameWatchers s t := by
  induction h with
  | refl => exact fun _ => rfl
  | tail _ write ih =>
    refine ih.trans fun a => ?_
    cases write with
    | edit stays => exact watchers?_modify ..
    | move type h =>
      unfold update at h
      split at h
      · cases h
      · dsimp only at h
        split at h <;> cases h <;> exact watchers?_modify ..

theorem watchers?_place (s : Store) (id a : ElementId) (e : Element) :
    (s.place id e).watchers? a = if a = id then some {} else s.watchers? a := by
  have known : (s.modify s.root (·.addChild id)).watchers? a = s.watchers? a :=
    watchers?_modify ..
  unfold watchers? place at *
  dsimp only
  rw [Table.find?_insert]
  split
  · rfl
  · exact known

/-- An operation leaves all registries alone, or brings one element with nobody to watch it. -/
theorem perform_watchers (s : Store) (op : Op) : SameWatchers s (s.perform op) ∨
    ∃ id, ¬ s.contains id ∧
      ∀ a, (s.perform op).watchers? a = if a = id then some {} else s.watchers? a := by
  rcases perform_writes s op with ⟨ids, h⟩ | ⟨ids, id, e, free, _, h⟩ | h
  · rw [h]
    exact .inl fun _ => rfl
  · rw [h]
    exact .inr ⟨id, free, fun a => watchers?_place _ id a e⟩
  · exact .inl (Writes.watchers h)

theorem watchers?_evict {id : ElementId} {gone : Element} (h : s.evict id = some (gone, t))
    (a : ElementId) : t.watchers? a = if a = id then none else s.watchers? a := by
  simp only [evict, Option.bind_eq_bind, Option.bind_eq_some_iff] at h
  obtain ⟨e, _, left, _, h⟩ := h
  cases h
  rw [← Writes.watchers (unlink_writes s id e) a]
  unfold watchers?
  dsimp only
  rw [Table.find?_erase]
  split <;> rfl

theorem evict_of_contains {id : ElementId} (h : s.contains id) :
    ∃ gone t, s.evict id = some (gone, t) := by
  obtain ⟨e, he⟩ := contains_iff.mp h
  have still : (s.unlink id e).contains id := by
    obtain ⟨l, hl⟩ := contains_iff_watchers?.mp h
    exact contains_iff_watchers?.mpr ⟨l, (Writes.watchers (unlink_writes s id e) id).trans hl⟩
  obtain ⟨left, hleft⟩ := contains_iff.mp still
  exact ⟨_, _, by simp only [evict, he, hleft, Option.bind_eq_bind, Option.bind_some]; rfl⟩

end Store
end SharedWorld
