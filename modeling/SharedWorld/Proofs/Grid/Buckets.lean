import SharedWorld.Proofs.Table
import SharedWorld.World.Grid

/-! The buckets of the spatial index. An element that is indexed is in the bucket of its column, once,
and in no other; no column has two buckets, and none is empty. -/
namespace SharedWorld
namespace Buckets
variable (cell c : Cell) (id : ElementId) (b : Buckets)

theorem find_push : (push c id b).find cell = if cell = c then find c b ++ [id] else find cell b := by
  induction b with
  | nil =>
    by_cases h : c = cell
    · simp [push, find, h]
    · simp [push, find, h, Ne.symm h]
  | cons x rest ih =>
    obtain ⟨k, ids⟩ := x
    by_cases hk : k = c
    · subst hk
      by_cases h : k = cell
      · simp [push, find, h]
      · simp [push, find, h, Ne.symm h]
    · by_cases h : k = cell
      · subst h
        simp [push, find, hk]
      · simp [push, find, hk, h, ih]

theorem keys_push : (push c id b).map (·.1) =
    if c ∈ b.map (·.1) then b.map (·.1) else b.map (·.1) ++ [c] := by
  induction b with
  | nil => rfl
  | cons x rest ih =>
    obtain ⟨k, ids⟩ := x
    by_cases hk : k = c
    · simp [push, hk]
    · simp only [push, if_neg hk, List.map_cons, ih, List.mem_cons, Ne.symm hk, false_or]
      split <;> rfl

theorem nodup_push (h : (b.map (·.1)).Nodup) : ((push c id b).map (·.1)).Nodup := by
  rw [keys_push]
  split
  · exact h
  · next free => simpa using List.Nodup.concat free h

theorem kept_push (h : ∀ x ∈ b, x.2 ≠ []) : ∀ x ∈ push c id b, x.2 ≠ [] := by
  induction b with
  | nil => simp [push]
  | cons x rest ih =>
    obtain ⟨k, ids⟩ := x
    obtain ⟨first, others⟩ := List.forall_mem_cons.mp h
    unfold push
    split
    · exact List.forall_mem_cons.mpr ⟨by simp, others⟩
    · exact List.forall_mem_cons.mpr ⟨first, ih others⟩

theorem find_of_not_mem (h : c ∉ b.map (·.1)) : find c b = [] := by
  induction b with
  | nil => rfl
  | cons x rest ih =>
    simp only [List.map_cons, List.mem_cons, not_or] at h
    simp [find, Ne.symm h.1, ih h.2]

theorem find_of_mem (apart : (b.map (·.1)).Nodup) {x : Cell × List ElementId} (h : x ∈ b) :
    find x.1 b = x.2 := by
  induction b with
  | nil => cases h
  | cons y rest ih =>
    obtain ⟨free, later⟩ := List.nodup_cons.mp apart
    cases h with
    | head => simp [find]
    | tail _ h =>
      have other : y.1 ≠ x.1 := fun same => free (List.mem_map.mpr ⟨x, h, same.symm⟩)
      simp [find, other, ih later h]

theorem mem_of_mem_find (h : id ∈ find c b) : (c, find c b) ∈ b := by
  induction b with
  | nil => cases h
  | cons x rest ih =>
    obtain ⟨k, ids⟩ := x
    by_cases hk : k = c
    · simp [find, hk]
    · simp only [find, if_neg hk] at h ⊢
      exact .tail _ (ih h)

theorem find_detach (h : (b.map (·.1)).Nodup) : (detach c id b).find cell =
    if cell = c then (find c b).filter (· ≠ id) else find cell b := by
  induction b with
  | nil => simp [detach, find]
  | cons x rest ih =>
    obtain ⟨k, ids⟩ := x
    obtain ⟨free, later⟩ := List.nodup_cons.mp h
    by_cases hk : k = c
    · subst hk
      simp only [detach, find, if_true]
      split
      · next none =>
        by_cases hc : cell = k
        · rw [if_pos hc, hc, none, find_of_not_mem k rest free]
        · rw [if_neg hc, if_neg (Ne.symm hc)]
      · by_cases hc : cell = k
        · simp [find, hc]
        · simp [find, hc, Ne.symm hc]
    · by_cases hc : k = cell
      · subst hc
        simp [detach, find, hk]
      · simp [detach, find, hk, hc, ih later]

theorem detach_sublist : ((detach c id b).map (·.1)).Sublist (b.map (·.1)) := by
  induction b with
  | nil => exact .refl _
  | cons x rest ih =>
    obtain ⟨k, ids⟩ := x
    unfold detach
    split
    · split
      · exact .cons _ (.refl _)
      · exact .refl _
    · exact ih.cons_cons _

theorem kept_detach (h : ∀ x ∈ b, x.2 ≠ []) : ∀ x ∈ detach c id b, x.2 ≠ [] := by
  induction b with
  | nil => simp [detach]
  | cons x rest ih =>
    obtain ⟨k, ids⟩ := x
    obtain ⟨first, others⟩ := List.forall_mem_cons.mp h
    unfold detach
    split
    · split
      · exact others
      · next left => exact List.forall_mem_cons.mpr ⟨left, others⟩
    · exact List.forall_mem_cons.mpr ⟨first, ih others⟩

/-- The buckets hold each element in the one column where it is, once, and no other element. -/
structure Files (b : Buckets) (column : ElementId → Option Cell) : Prop where
  apart : (b.map (·.1)).Nodup
  kept : ∀ x ∈ b, x.2 ≠ []
  count : ∀ cell id, (b.find cell).count id = if column id = some cell then 1 else 0

namespace Files
variable {b : Buckets} {c : Cell} {id : ElementId} {column : ElementId → Option Cell}

theorem congr (h : Files b column) {other : ElementId → Option Cell}
    (same : ∀ a, other a = column a) : Files b other := funext same ▸ h

theorem mem_find (h : Files b column) : id ∈ b.find c ↔ column id = some c := by
  rw [← List.count_pos_iff, h.count]
  split <;> simp [*]

theorem mem_bucket (h : Files b column) {bucket : Cell × List ElementId} (held : bucket ∈ b) :
    id ∈ bucket.2 ↔ column id = some bucket.1 := by
  rw [← find_of_mem b h.apart held]
  exact h.mem_find

theorem sole_bucket (h : Files b column) (here : column id = some c)
    (bucket : Cell × List ElementId) : bucket ∈ b ∧ id ∈ bucket.2 ↔ bucket = (c, b.find c) := by
  constructor
  · rintro ⟨held, listed⟩
    have column : column id = some bucket.1 := (h.mem_bucket held).mp listed
    obtain rfl : c = bucket.1 := Option.some_inj.mp (here.symm.trans column)
    exact Prod.ext rfl (find_of_mem b h.apart held).symm
  · rintro rfl
    have listed : id ∈ b.find c := h.mem_find.mpr here
    exact ⟨mem_of_mem_find c id b listed, listed⟩

theorem push (h : Files b column) (free : column id = none) :
    Files (b.push c id) fun a => if a = id then some c else column a := by
  refine ⟨nodup_push c id b h.apart, kept_push c id b h.kept, fun cell a => ?_⟩
  rw [find_push]
  by_cases hc : cell = c
  · subst hc
    rw [if_pos rfl, List.count_append, h.count]
    by_cases ha : a = id
    · simp [ha, free]
    · simp [ha, Ne.symm ha]
  · rw [if_neg hc, h.count]
    by_cases ha : a = id
    · simp [ha, free, Ne.symm hc]
    · simp [ha]

theorem detach (h : Files b column) (here : column id = some c) :
    Files (b.detach c id) fun a => if a = id then none else column a := by
  refine ⟨h.apart.sublist (detach_sublist c id b), kept_detach c id b h.kept, fun cell a => ?_⟩
  rw [find_detach cell c id b h.apart]
  by_cases hc : cell = c
  · subst hc
    rw [if_pos rfl]
    by_cases ha : a = id
    · simp [ha, List.count_eq_zero]
    · rw [List.count_filter (by simpa using ha), h.count, if_neg ha]
  · rw [if_neg hc, h.count]
    by_cases ha : a = id
    · simp [ha, here, Ne.symm hc]
    · simp [ha]

end Files
end Buckets

namespace Grid
variable {g : Grid} {id : ElementId}

def column (g : Grid) (id : ElementId) : Option Cell := (g.position? id).map g.cellAt

theorem column_eq_some {cell : Cell} : g.column id = some cell ↔
    ∃ e, g.entries.find? id = some e ∧ g.cellAt e.position = cell := by
  simp [column, position?]

theorem find?_upsert (p : Vec3) (type : ElementType) (a : ElementId) :
    (g.upsert id p type).entries.find? a = if a = id then some ⟨p, type⟩ else g.entries.find? a :=
  Table.find?_insert ..

theorem upsert_same {p : Vec3} {type : ElementType}
    (known : g.entries.find? id = some ⟨p, type⟩) :
    g.upsert id p type = g := by
  have entries : g.entries.insert id ⟨p, type⟩ = g.entries := by
    refine Table.ext_find? fun a => ?_
    rw [Table.find?_insert]
    split
    · next here => rw [here, known]
    · rfl
  unfold upsert
  rw [known, entries]
  dsimp only
  rw [if_pos rfl]

theorem find?_remove (a : ElementId) :
    (g.remove id).entries.find? a = if a = id then none else g.entries.find? a := by
  unfold remove
  split
  · exact Table.find?_erase ..
  · next none =>
    split
    · next ha => rw [ha, none]
    · rfl

theorem column_upsert (p : Vec3) (type : ElementType) (a : ElementId) :
    (g.upsert id p type).column a = if a = id then some (g.cellAt p) else g.column a := by
  unfold column position?
  rw [find?_upsert]
  split <;> rfl

theorem column_remove (a : ElementId) :
    (g.remove id).column a = if a = id then none else g.column a := by
  have size : (g.remove id).cellAt = g.cellAt := by
    unfold remove
    split <;> rfl
  unfold column position?
  rw [find?_remove, size]
  split <;> rfl

theorem files_new (cellSize : Single) : (new cellSize).buckets.Files (new cellSize).column :=
  ⟨.nil, nofun, fun _ _ => rfl⟩

theorem files_upsert (h : g.buckets.Files g.column) (p : Vec3) (type : ElementType) :
    (g.upsert id p type).buckets.Files (g.upsert id p type).column := by
  unfold upsert
  dsimp only
  split
  · next previous hp =>
    have here : g.column id = some (g.cellAt previous.position) :=
      column_eq_some.mpr ⟨previous, hp, rfl⟩
    split
    · next stays =>
      refine h.congr fun a => (column_upsert p type a).trans ?_
      split
      · next ha => rw [ha, here, stays]
      · rfl
    · refine ((h.detach here).push (if_pos rfl)).congr fun a => (column_upsert p type a).trans ?_
      split <;> simp [*]
  · next none =>
    have free : g.column id = .none := by simp [column, position?, none]
    exact (h.push free).congr (column_upsert p type)

theorem files_remove (h : g.buckets.Files g.column) :
    (g.remove id).buckets.Files (g.remove id).column := by
  rw [funext column_remove]
  unfold remove
  split
  · next entry he => exact h.detach (column_eq_some.mpr ⟨entry, he, rfl⟩)
  · next none =>
    refine h.congr fun a => ?_
    split
    · next ha => simp [ha, column, position?, none]
    · rfl

end Grid
end SharedWorld
