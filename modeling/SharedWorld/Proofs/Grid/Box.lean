import SharedWorld.Proofs.Grid.Buckets
import SharedWorld.Proofs.Single.Quotient

/-! What lies within a box is found there, whether columns or elements are gone through: columns are in
the order of their coordinates. -/
namespace SharedWorld

namespace Grid
variable {g : Grid} {id : ElementId} {entry : GridEntry} {b : Bounds}

/-- Columns are neither turned around nor all one. -/
structure Sized (g : Grid) : Prop where
  finite : Single.Finite g.cellSize.view
  positive : 0 < g.cellSize.amount

theorem sized_new (cellSize : Single) : (new cellSize).Sized := by
  have sized {c : Single} (h : c.isFinite ∧ Single.zero < c) :
      Sized { cellSize := c } := by
    obtain ⟨_, _, positive⟩ := Single.lt_iff.mp h.2
    exact ⟨Single.finite_of_isFinite h.1, positive⟩
  unfold new
  split
  · next given => exact sized given
  · exact sized (by decide)

theorem remove_cellSize : (g.remove id).cellSize = g.cellSize := by
  unfold remove
  split <;> rfl

theorem Sized.axisCell_mono (sized : g.Sized) {x y : Single} (h : x ≤ y) :
    g.axisCell x ≤ g.axisCell y :=
  Single.floor32_mono (Single.div_le_div_right sized.finite sized.positive h)

theorem mem_inCell (files : g.buckets.Files g.column) (h : g.entries.find? id = some entry) :
    (id, entry) ∈ g.inCell (g.cellAt entry.position) := by
  have here : g.column id = some (g.cellAt entry.position) := column_eq_some.mpr ⟨entry, h, rfl⟩
  exact List.mem_filterMap.mpr ⟨id, files.mem_find.mpr here, by rw [h]; rfl⟩

theorem mem_integers {first n : Int} {count : Nat} :
    n ∈ integers first count ↔ first ≤ n ∧ n < first + count := by
  unfold integers
  rw [List.mem_map]
  constructor
  · rintro ⟨k, hk, rfl⟩
    have := List.mem_range.mp hk
    omega
  · rintro ⟨low, high⟩
    exact ⟨(n - first).toNat, List.mem_range.mpr (by omega), by omega⟩

theorem mem_candidates (sized : g.Sized) (files : g.buckets.Files g.column)
    (h : g.entries.find? id = some entry) {minX minY maxX maxY : Single}
    (left : minX ≤ entry.position.x) (right : entry.position.x ≤ maxX)
    (bottom : minY ≤ entry.position.y) (top : entry.position.y ≤ maxY) :
    (id, entry) ∈ g.candidates minX minY maxX maxY := by
  have left := sized.axisCell_mono left
  have right := sized.axisCell_mono right
  have bottom := sized.axisCell_mono bottom
  have top := sized.axisCell_mono top
  unfold candidates cellOf
  dsimp only
  split
  · exact Table.mem_of_find? h
  split
  · next none =>
    rcases Nat.mul_eq_zero.mp none with none | none <;> omega
  · refine List.mem_flatMap.mpr ⟨_, mem_integers.mpr ⟨bottom, by omega⟩, ?_⟩
    exact List.mem_flatMap.mpr ⟨_, mem_integers.mpr ⟨left, by omega⟩, mem_inCell files h⟩

theorem mem_withinBox (sized : g.Sized) (files : g.buckets.Files g.column)
    (h : g.entries.find? id = some entry) (within : b.Contains entry.position) :
    id ∈ g.withinBox b := by
  have ⟨left, right, bottom, top, _⟩ := within
  refine List.mem_map.mpr ⟨(id, entry), List.mem_filter.mpr ⟨?_, decide_eq_true within⟩, rfl⟩
  exact mem_candidates sized files h left right bottom top

end Grid
end SharedWorld
