import Mathlib.Data.Set.Basic
import SharedWorld.Proofs.Store.Frame

/-! Regions of the world. What is done to the elements of a region, with an eye only to them and to who
is there at all, changes nothing outside of it, and comes to the same whatever is going on there. -/
namespace SharedWorld
namespace Store
variable {region other : Set ElementId} {s t u s' t' u' : Store} {id : ElementId}

/-- The same elements are there, and those in a region are the same in both indexes. -/
structure Agree (region : Set ElementId) (s t : Store) : Prop where
  root : t.root = s.root
  keys : t.residents.keys = s.residents.keys
  types : t.types = s.types
  ids : t.ids = s.ids
  cellSize : t.grid.cellSize = s.grid.cellSize
  residents : ∀ x ∈ region, t.residents.find? x = s.residents.find? x
  entries : ∀ x ∈ region, t.grid.entries.find? x = s.grid.entries.find? x

/-- The same elements, watched by the same, and the same entries in both indexes; the columns of the
spatial one may list theirs in another order. -/
structure Same (s t : Store) : Prop where
  root : t.root = s.root
  residents : t.residents = s.residents
  types : t.types = s.types
  ids : t.ids = s.ids
  cellSize : t.grid.cellSize = s.grid.cellSize
  entries : t.grid.entries = s.grid.entries

namespace Agree

theorem refl (region : Set ElementId) (s : Store) : Agree region s s :=
  ⟨rfl, rfl, rfl, rfl, rfl, fun _ _ => rfl, fun _ _ => rfl⟩

theorem symm (h : Agree region s t) : Agree region t s :=
  ⟨h.root.symm, h.keys.symm, h.types.symm, h.ids.symm, h.cellSize.symm,
    fun x hx => (h.residents x hx).symm, fun x hx => (h.entries x hx).symm⟩

theorem trans (h : Agree region s t) (h' : Agree region t u) : Agree region s u :=
  ⟨h'.root.trans h.root, h'.keys.trans h.keys, h'.types.trans h.types, h'.ids.trans h.ids,
    h'.cellSize.trans h.cellSize, fun x hx => (h'.residents x hx).trans (h.residents x hx),
    fun x hx => (h'.entries x hx).trans (h.entries x hx)⟩

theorem mono (h : Agree region s t) (sub : other ⊆ region) : Agree other s t :=
  { h with
    residents := fun x hx => h.residents x (sub hx)
    entries := fun x hx => h.entries x (sub hx) }

theorem find? (h : Agree region s t) {x : ElementId} (hx : x ∈ region) :
    t.find? x = s.find? x :=
  congrArg (Option.map Resident.element) (h.residents x hx)

theorem size (h : Agree region s t) : t.size = s.size := by
  have counted (s : Store) : s.residents.keys.length = s.size := Table.keys_length _
  rw [← counted, ← counted, h.keys]

theorem contains (h : Agree region s t) (x : ElementId) : t.contains x = s.contains x := by
  have listed (s : Store) : s.contains x ↔ x ∈ s.residents.keys := Table.mem_keys.symm
  rw [Bool.eq_iff_iff, listed, listed, h.keys]

theorem of_points (h : ∀ x, Agree {x} s t) : Agree Set.univ s t :=
  { h .invalid with
    residents := fun x _ => (h x).residents x rfl
    entries := fun x _ => (h x).entries x rfl }

theorem same (h : Agree Set.univ s t) : Same s t :=
  ⟨h.root, Table.ext_find? fun x => h.residents x trivial, h.types, h.ids, h.cellSize,
    Table.ext_find? fun x => h.entries x trivial⟩

end Agree

/-- From `s` to `t` and from `s'` to `t'` the same was done to the elements of a region, and nothing to
the others. -/
structure Parallel (region : Set ElementId) (s s' t t' : Store) : Prop where
  agree : Agree region t t'
  here : Agree regionᶜ s t
  there : Agree regionᶜ s' t'

namespace Parallel

theorem refl (h : Agree region s s') : Parallel region s s' s s' := ⟨h, .refl _ s, .refl _ s'⟩

theorem trans (h : Parallel region s s' t t') (h' : Parallel region t t' u u') :
    Parallel region s s' u u' := ⟨h'.agree, h.here.trans h'.here, h.there.trans h'.there⟩

end Parallel

section Edit
variable (h : Agree region s s') (hid : id ∈ region)
include h hid

theorem Agree.modify (f : Element → Element) :
    Parallel region s s' (s.modify id f) (s'.modify id f) := by
  have aside (s : Store) : Agree regionᶜ s (s.modify id f) := by
    refine ⟨rfl, Table.keys_modify .., rfl, rfl, rfl, fun x hx => ?_, fun _ _ => rfl⟩
    have apart : x ≠ id := fun here => hx (here ▸ hid)
    exact (Table.find?_modify_eq ..).trans (if_neg apart)
  refine ⟨⟨h.root, ?_, h.types, h.ids, h.cellSize, fun x hx => ?_, h.entries⟩, aside s, aside s'⟩
  · exact (Table.keys_modify ..).trans (h.keys.trans (Table.keys_modify ..).symm)
  · unfold Store.modify
    rw [Table.find?_modify_eq, Table.find?_modify_eq, h.residents x hx]

theorem Agree.move (position : Vec3) (type : ElementType) :
    Parallel region s s' { s with grid := s.grid.upsert id position type }
      { s' with grid := s'.grid.upsert id position type } := by
  have entries (g : Grid) : (g.upsert id position type).entries =
    g.entries.insert id ⟨position, type⟩ := rfl
  have aside (s : Store) :
      Agree regionᶜ s { s with grid := s.grid.upsert id position type } := by
    refine ⟨rfl, rfl, rfl, rfl, rfl, fun _ _ => rfl, fun x hx => ?_⟩
    have apart : x ≠ id := fun here => hx (here ▸ hid)
    exact (Table.find?_insert ..).trans (if_neg apart)
  refine ⟨⟨h.root, h.keys, h.types, h.ids, h.cellSize, h.residents, fun x hx => ?_⟩, aside s,
    aside s'⟩
  dsimp only
  rw [entries, entries, Table.find?_insert, Table.find?_insert, h.entries x hx]

theorem Agree.update (f : Element → Element) :
    (∃ e, s.update id f = .error e ∧ s'.update id f = .error e) ∨
      ∃ t t', s.update id f = .ok t ∧ s'.update id f = .ok t' ∧ Parallel region s s' t t' := by
  have edited := h.modify hid f
  unfold Store.update
  rw [h.find? hid]
  cases s.find? id with
  | none => exact .inl ⟨_, rfl, rfl⟩
  | some e =>
    refine .inr ?_
    dsimp only
    split
    · exact ⟨_, _, rfl, rfl, edited⟩
    · exact ⟨_, _, rfl, rfl, edited.trans (edited.agree.move hid _ _)⟩

end Edit

/-- What hangs on an element of a region is in the region as well. -/
def Closed (s : Store) (region : Set ElementId) : Prop :=
  ∀ c ∈ region, ∀ e, s.find? c = some e → ∀ x ∈ e.attached.toList, x ∈ region

theorem Closed.of_bonds (closed : s.Closed region) (same : ∀ a, t.bonds? a = s.bonds? a) :
    t.Closed region := by
  intro c hc e he x hx
  have bonds := same c
  rw [bonds?, he, Option.map_some, bonds?, eq_comm, Option.map_eq_some_iff] at bonds
  obtain ⟨e', he', bonds⟩ := bonds
  have attached : e'.attached = e.attached := congrArg Bonds.attached bonds
  exact closed c hc e' he' x (attached ▸ hx)

theorem Agree.follow (h : Agree region s s') (hid : id ∈ region) (targetId : ElementId)
    (target : Element) :
    (s.follow targetId target id = none ∧ s'.follow targetId target id = none) ∨
      ∃ t t', s.follow targetId target id = some t ∧ s'.follow targetId target id = some t' ∧
        Parallel region s s' t t' := by
  unfold Store.follow
  rw [h.find? hid]
  cases he : s.find? id with
  | none => exact .inl ⟨rfl, rfl⟩
  | some e =>
    cases ha : e.attachment with
    | none => simp [ha]
    | some a =>
      simp only [Option.bind_eq_bind, Option.bind_some, ha]
      split
      · rcases h.update hid (placed target a) with ⟨e, ht, ht'⟩ | ⟨t, t', ht, ht', parallel⟩
        · exact .inl (by simp [ht, ht', Except.toOption])
        · exact .inr ⟨t, t', by simp [ht, Except.toOption], by simp [ht', Except.toOption], parallel⟩
      · exact .inl ⟨rfl, rfl⟩

theorem Agree.followAll (h : Agree region s s') (targetId : ElementId) (target : Element)
    {ids : List ElementId} (inside : ∀ x ∈ ids, x ∈ region) :
    let moved := s.followAll targetId target ids
    let moved' := s'.followAll targetId target ids
    moved'.1 = moved.1 ∧ (∀ x ∈ moved.1, x ∈ region) ∧
      Parallel region s s' moved.2 moved'.2 := by
  induction ids generalizing s s' with
  | nil => exact ⟨rfl, nofun, .refl h⟩
  | cons id ids ih =>
    have here := inside id List.mem_cons_self
    have rest (x) (hx : x ∈ ids) : x ∈ region := inside x (List.mem_cons_of_mem id hx)
    unfold Store.followAll
    rcases h.follow here targetId target with ⟨ht, ht'⟩ | ⟨t, t', ht, ht', parallel⟩ <;>
    rw [ht, ht']
    · exact ih h rest
    · obtain ⟨same, below, onward⟩ := ih parallel.agree rest
      refine ⟨congrArg (id :: ·) same, fun x hx => ?_, parallel.trans onward⟩
      rcases List.mem_cons.mp hx with rfl | hx
      · exact here
      · exact below x hx

theorem Agree.propagateFrom (h : Agree region s s') (closed : s.Closed region) (n : Nat)
    (visited : IdSet) {waiting : List ElementId} (inside : ∀ x ∈ waiting, x ∈ region)
    (moved : Nat) :
    Parallel region s s' (propagateFrom n visited waiting moved s).2
      (propagateFrom n visited waiting moved s').2 := by
  -- What waits is in the region, and so is what a turn adds to it.
  induction n generalizing visited waiting moved s s' with
  | zero => exact .refl h
  | succ n ih =>
    cases waiting with
    | nil => exact .refl h
    | cons c waiting =>
      have here := inside c List.mem_cons_self
      have rest (x) (hx : x ∈ waiting) : x ∈ region := inside x (List.mem_cons_of_mem c hx)
      unfold Store.propagateFrom
      split
      · exact ih h closed _ rest moved
      · rw [h.find? here]
        cases he : s.find? c with
        | none => exact ih h closed _ rest moved
        | some e =>
          obtain ⟨same, below, parallel⟩ := h.followAll c e (closed c here e he)
          dsimp only
          rw [same]
          refine parallel.trans (ih parallel.agree ?_ _ ?_ _)
          · exact closed.of_bonds fun a => bonds?_of_rest? (followAll_rest ..)
          · intro x hx
            rcases List.mem_append.mp hx with hx | hx
            · exact below x (List.mem_reverse.mp hx)
            · exact rest x hx

theorem Agree.propagate (h : Agree region s s') (closed : s.Closed region) {top : ElementId}
    (inside : top ∈ region) : Parallel region s s' (s.propagate top).2 (s'.propagate top).2 := by
  unfold Store.propagate
  rw [h.size]
  exact h.propagateFrom closed _ _ (fun x hx => List.mem_singleton.mp hx ▸ inside) 0

end Store
end SharedWorld
