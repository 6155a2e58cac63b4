import Mathlib.Data.List.Nodup
import SharedWorld.Id

/-! Look-ups after a change, by equality of keys, and what a set of identifiers holds. -/
namespace SharedWorld.Table
variable {κ α : Type} [Ranked κ]

theorem rank_eq_iff {a b : κ} : rank a = rank b ↔ a = b :=
  ⟨Ranked.rank_injective, congrArg rank⟩

theorem mem_iff {t : Table κ α} {k : κ} : k ∈ t ↔ (t.find? k).isSome := Iff.rfl

theorem lookup_isSome_iff {k : κ} {xs : List (κ × α)} :
    (lookup k xs).isSome ↔ k ∈ xs.map (·.1) := by
  induction xs with
  | nil => simp [lookup]
  | cons x xs ih =>
    by_cases h : rank x.1 = rank k
    · simp [lookup, Ranked.rank_injective h]
    · have hne : k ≠ x.1 := fun e => h (congrArg rank e.symm)
      simp [lookup, h, ih, hne]

theorem mem_keys {t : Table κ α} {k : κ} : k ∈ t.keys ↔ k ∈ t := lookup_isSome_iff.symm

theorem find?_of_mem {t : Table κ α} {x : κ × α} (h : x ∈ t.entries) : t.find? x.1 = some x.2 := by
  obtain ⟨entries, ascending⟩ := t
  unfold find?
  induction entries with
  | nil => cases h
  | cons y ys ih =>
    obtain ⟨first, rest⟩ := List.pairwise_cons.mp ascending
    cases h with
    | head => simp [lookup]
    | tail _ h =>
      have later : rank y.1 ≠ rank x.1 := Nat.ne_of_lt (first x h)
      simpa [lookup, later] using ih rest h

theorem mem_of_find? {t : Table κ α} {k : κ} {a : α} (h : t.find? k = some a) :
    (k, a) ∈ t.entries := by
  have key : k ∈ t.keys := lookup_isSome_iff.mp (Option.isSome_of_eq_some h)
  obtain ⟨x, hx, rfl⟩ := List.mem_map.mp key
  cases (find?_of_mem hx).symm.trans h
  exact hx

theorem keys_length (t : Table κ α) : t.keys.length = t.size := List.length_map ..

theorem keys_nodup (t : Table κ α) : t.keys.Nodup :=
  List.pairwise_map.mpr (t.ascending.imp fun h e => Nat.ne_of_lt h (congrArg rank e))

theorem modify_modify (t : Table κ α) (k : κ) (f g : α → α) :
    (t.modify k f).modify k g = t.modify k (g ∘ f) := by
  unfold modify
  congr 1
  rw [List.map_map]
  refine List.map_congr_left fun x _ => ?_
  by_cases hk : rank x.1 = rank k <;> simp [hk]

theorem keys_modify (t : Table κ α) (k : κ) (f : α → α) : (t.modify k f).keys = t.keys := by
  unfold keys modify
  rw [List.map_map]
  refine List.map_congr_left fun x _ => ?_
  dsimp only [Function.comp_apply]
  split <;> rfl

/-- A table is what can be looked up in it. -/
theorem ext_find? {t u : Table κ α} (same : ∀ k, t.find? k = u.find? k) : t = u := by
  have member (t : Table κ α) (x : κ × α) : x ∈ t.entries ↔ t.find? x.1 = some x.2 :=
    ⟨find?_of_mem, mem_of_find?⟩
  have distinct (t : Table κ α) : t.entries.Nodup :=
    List.Pairwise.imp (fun h e => absurd h (by rw [e]; exact Nat.lt_irrefl _)) t.ascending
  have perm : t.entries.Perm u.entries :=
    (List.perm_ext_iff_of_nodup (distinct t) (distinct u)).mpr fun x => by
      rw [member, member, same]
  have entries : t.entries = u.entries :=
    perm.eq_of_pairwise (fun a b _ _ h h' => absurd h (Nat.lt_asymm h')) t.ascending u.ascending
  cases t
  cases u
  congr

variable [DecidableEq κ]

theorem find?_insert (t : Table κ α) (j k : κ) (a : α) :
    (t.insert k a).find? j = if j = k then some a else t.find? j := by
  split
  · next h => rw [h, find?_insert_self]
  · next h => exact find?_insert_of_ne t h a

theorem find?_erase (t : Table κ α) (j k : κ) :
    (t.erase k).find? j = if j = k then none else t.find? j := by
  split
  · next h => rw [h, find?_erase_self]
  · next h => exact find?_erase_of_ne t h

theorem find?_modify_eq (t : Table κ α) (j k : κ) (f : α → α) :
    (t.modify k f).find? j = if j = k then (t.find? j).map f else t.find? j := by
  rw [find?_modify]
  simp only [rank_eq_iff]

theorem mem_insert {t : Table κ α} {j k : κ} {a : α} : j ∈ t.insert k a ↔ j = k ∨ j ∈ t := by
  simp only [mem_iff, find?_insert]
  split <;> simp_all

theorem mem_erase {t : Table κ α} {j k : κ} : j ∈ t.erase k ↔ j ≠ k ∧ j ∈ t := by
  simp only [mem_iff, find?_erase]
  split <;> simp_all

end SharedWorld.Table

namespace SharedWorld.IdSet

theorem mem_toList {s : IdSet} {id : ElementId} : id ∈ s.toList ↔ id ∈ s := Table.mem_keys

theorem mem_add {s : IdSet} {id new : ElementId} : id ∈ s.add new ↔ id = new ∨ id ∈ s :=
  Table.mem_insert

theorem not_mem_empty (id : ElementId) : id ∉ (Table.empty : IdSet) := by
  simp [Table.mem_iff]

end SharedWorld.IdSet
