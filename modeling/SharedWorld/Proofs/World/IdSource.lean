import SharedWorld.Proofs.World.Writes

/-! A counter never gives out an identifier twice: it goes on, past every one that it gave out. -/
namespace SharedWorld

namespace IdSource
variable {ids ids' : IdSource} {id : ElementId}

def IsCounter (ids : IdSource) : Prop := ∃ n, ids = .counter n

/-- A counter is past an identifier, and will not give it out any more. -/
def Past (ids : IdSource) (id : ElementId) : Prop := ∃ n, ids = .counter n ∧ id.number < n

/-- A counter that has gone on, if it is one. -/
structure Onward (ids ids' : IdSource) : Prop where
  counter : ids.IsCounter → ids'.IsCounter
  past : ∀ id, ids.Past id → ids'.Past id

theorem Onward.refl (ids : IdSource) : Onward ids ids := ⟨id, fun _ => id⟩

theorem Onward.trans {ids'' : IdSource} (h : Onward ids ids') (h' : Onward ids' ids'') :
    Onward ids ids'' := ⟨h'.counter ∘ h.counter, fun id => h'.past id ∘ h.past id⟩

theorem Onward.of_le {n m : UInt32} (h : n ≤ m) : Onward (.counter n) (.counter m) := by
  refine ⟨fun _ => ⟨m, rfl⟩, ?_⟩
  rintro id ⟨k, same, low⟩
  cases same
  exact ⟨m, rfl, UInt32.lt_of_lt_of_le low h⟩

theorem Onward.of_listed (taken left : List ElementId) : Onward (.listed taken) (.listed left) :=
  ⟨nofun, nofun⟩

theorem toNat_succ {n : UInt32} (h : n < 0xffffffff) : (n + 1).toNat = n.toNat + 1 := by
  have bound : n.toNat < 4294967295 := UInt32.lt_iff_toNat_lt.mp h
  have one : (1 : UInt32).toNat = 1 := rfl
  rw [UInt32.toNat_add]
  omega

theorem lt_succ {n : UInt32} (h : n < 0xffffffff) : n < n + 1 := by
  rw [UInt32.lt_iff_toNat_lt, toNat_succ h]
  exact Nat.lt_succ_self _

theorem next_onward (ids : IdSource) : Onward ids ids.next.2 := by
  unfold next
  split
  · next n =>
    split
    · next low => exact .of_le (UInt32.le_of_lt (lt_succ low))
    · exact .refl _
  · exact .of_listed ..
  · exact .refl _

theorem next_fresh (counter : ids.IsCounter) (h : ids.next = (.ok id, ids')) :
    ids'.Past id ∧ ¬ ids.Past id := by
  obtain ⟨n, rfl⟩ := counter
  by_cases low : n < 0xffffffff
  · simp only [next, low, if_true, Prod.mk.injEq, Except.ok.injEq] at h
    obtain ⟨rfl, rfl⟩ := h
    refine ⟨⟨n + 1, rfl, lt_succ low⟩, ?_⟩
    rintro ⟨m, same, lower⟩
    cases same
    exact UInt32.lt_irrefl n lower
  · simp [next, low] at h

theorem reserve_onward (id : ElementId) (ids : IdSource) : Onward ids (ids.reserve id) := by
  unfold reserve
  split
  · split
    · next taken => exact .of_le (UInt32.le_of_lt taken.2)
    · exact .refl _
  · exact .refl _

end IdSource

open IdSource

namespace Store
variable {s t : Store} {id : ElementId}

theorem freshId_onward (s : Store) (n : Nat) (ids : IdSource) : Onward ids (s.freshId n ids).2 := by
  induction n generalizing ids with
  | zero => exact .refl ids
  | succ n ih =>
    have first := next_onward ids
    unfold freshId
    split
    · next h =>
      rw [h] at first
      exact first
    · next h =>
      rw [h] at first
      split
      · exact first.trans (ih _)
      · exact first

theorem freshId_fresh {n : Nat} {ids ids' : IdSource} (counter : ids.IsCounter)
    (h : s.freshId n ids = (.ok id, ids')) : ids'.Past id ∧ ¬ ids.Past id := by
  induction n generalizing ids with
  | zero => cases h
  | succ n ih =>
    have first := next_onward ids
    unfold freshId at h
    split at h
    · cases h
    · next new ids'' given =>
      rw [given] at first
      split at h
      · have later := ih (first.counter counter) h
        exact ⟨later.1, later.2 ∘ first.past id⟩
      · cases h
        exact next_fresh counter given

theorem assignId_onward (s : Store) (wanted : ElementId) :
    Onward s.ids (s.assignId wanted).2 := by
  unfold assignId
  split
  · split
    · exact .refl _
    · exact reserve_onward wanted s.ids
  · exact freshId_onward ..

theorem insert_onward (s : Store) (e : Element) : Onward s.ids (s.insert e).2.ids := by
  have assigned := assignId_onward s e.id
  unfold insert
  split
  · exact .refl _
  · split
    · next h =>
      rw [h] at assigned
      exact assigned
    · next h =>
      rw [h] at assigned
      exact assigned

theorem insert_fresh {e : Element} (any : ¬ e.id.isValid) (counter : s.ids.IsCounter)
    (h : s.insert e = (.ok id, t)) : t.ids.Past id ∧ ¬ s.ids.Past id := by
  unfold insert at h
  split at h
  · cases h
  split at h
  · cases h
  · next ids given =>
    cases h
    rw [assignId, if_neg any] at given
    exact freshId_fresh counter given

theorem Writes.ids (h : Writes s t) : t.ids = s.ids := by
  induction h with
  | refl => rfl
  | tail _ write ih =>
    rw [← ih]
    cases write with
    | edit => rfl
    | move _ h =>
      unfold update at h
      split at h
      · cases h
      · dsimp only at h
        split at h <;> cases h <;> rfl

theorem evict_ids {gone : Element} (h : s.evict id = some (gone, t)) : t.ids = s.ids := by
  simp only [evict, Option.bind_eq_bind, Option.bind_eq_some_iff] at h
  obtain ⟨e, _, left, _, h⟩ := h
  cases h
  exact (unlink_writes s id e).ids

theorem Removals.ids (h : Removals s t) : t.ids = s.ids := by
  induction h with
  | alike h => exact h.ids
  | evict _ h => exact evict_ids h
  | trans _ _ ih ih' => exact ih'.trans ih

theorem perform_onward (s : Store) (op : Op) : Onward s.ids (s.perform op).ids := by
  rcases inserts_or_writes s op with ⟨e, rfl⟩ | written
  · exact insert_onward s e
  · rw [written.ids]
    exact .refl _

end Store

open Store

/-- Whatever is asked of a world, its counter goes on. -/
theorem World.perform_onward (w : World) (op : Op) :
    Onward w.store.ids (w.perform op).store.ids := by
  rcases perform_cases w op with h | ⟨sop, h⟩ | h
  · rw [h.ids]
    exact .refl _
  · rw [h.ids]
    exact Store.perform_onward w.store sop
  · obtain ⟨id, e, old, new, _, _, h⟩ := h
    rw [h]
    exact .refl _

end SharedWorld
