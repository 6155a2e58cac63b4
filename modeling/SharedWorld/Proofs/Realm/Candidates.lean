import SharedWorld.Proofs.Grid.Box
import SharedWorld.Proofs.Realm.Run
import SharedWorld.Proofs.Shape.Region
import SharedWorld.Proofs.World.Indexes
import SharedWorld.Proofs.Zone.Pass

/-! What a pass looks at. An element that a check of a shape would let in is among the candidates of
the shape, where its region holds what it holds. -/
namespace SharedWorld

theorem Single.Level.amount {x y : Single} (h : x.Level y) :
    x.isNaN = y.isNaN ∧ x.amount = y.amount := by
  have zero {z : Single} (hz : z.abs = .zero) : z.isNaN = false ∧ z.amount = 0 := by
    have number := abs_isNaN z
    have amount := abs_amount z
    rw [hz] at number amount
    exact ⟨number.symm, abs_eq_zero.mp (amount.symm.trans amount_zero)⟩
  rcases h with rfl | ⟨hx, hy⟩
  · exact ⟨rfl, rfl⟩
  · exact ⟨(zero hx).1.trans (zero hy).1.symm, (zero hx).2.trans (zero hy).2.symm⟩

theorem Single.Level.between {x y low high : Single} (h : x.Level y) :
    low ≤ x ∧ x ≤ high ↔ low ≤ y ∧ y ≤ high := by
  obtain ⟨number, amount⟩ := h.amount
  simp only [Single.le_iff, number, amount]

theorem Bounds.Contains.congr {b : Bounds} {p q : Vec3} (within : b.Contains p) (h : p.Level q) :
    b.Contains q := by
  obtain ⟨left, right, bottom, top, floor, ceiling⟩ := within
  obtain ⟨left, right⟩ := h.x.between.mp ⟨left, right⟩
  obtain ⟨bottom, top⟩ := h.y.between.mp ⟨bottom, top⟩
  exact ⟨left, right, bottom, top, h.z.between.mp ⟨floor, ceiling⟩⟩

namespace Store
variable {s t : Store}

theorem Write.cellSize (h : Write s t) : t.grid.cellSize = s.grid.cellSize := by
  cases h with
  | edit => rfl
  | move type h =>
    unfold update at h
    split at h
    · cases h
    · dsimp only at h
      split at h <;> cases h <;> rfl

theorem Writes.cellSize (h : Writes s t) : t.grid.cellSize = s.grid.cellSize := by
  induction h with
  | refl => rfl
  | tail _ write ih => exact write.cellSize.trans ih

theorem Turn.cellSize (h : Turn s t) : t.grid.cellSize = s.grid.cellSize := by
  cases h with
  | alike h => rw [h.grid]
  | perform op =>
    rcases perform_writes s op with ⟨ids, h⟩ | ⟨ids, id, e, _, _, h⟩ | h
    · rw [h]
    · rw [h, place_grid]
      rfl
    · exact h.cellSize
  | reshape h =>
    obtain ⟨id, e, old, new, he, hk, rfl⟩ := h
    rfl
  | evict notRoot h =>
    simp only [Store.evict, Option.bind_eq_bind, Option.bind_eq_some_iff] at h
    obtain ⟨e, he, left, _, h⟩ := h
    cases h
    exact Grid.remove_cellSize.trans (unlink_writes s _ e).cellSize

theorem Turn.sized (h : Turn s t) (sized : s.grid.Sized) : t.grid.Sized := by
  refine ⟨?_, ?_⟩
  · rw [h.cellSize]
    exact sized.finite
  · rw [h.cellSize]
    exact sized.positive

end Store

namespace World
variable {w : World} {shape element : ElementId} {z : Zone}

/-- Where both now stand, neither rounding nor tolerance does anything to the shape at the element. -/
def PlainAt (w : World) (shape element : ElementId) : Prop :=
  match w.store.find? element, w.store.find? shape with
  | some e, some s => ∀ geometry ∈ s.shape?, geometry.Plain s.position e.position ∧
      geometry.Clear e.position
  | _, _ => True

instance (w : World) (shape element : ElementId) : Decidable (w.PlainAt shape element) := by
  unfold PlainAt
  split <;> infer_instance

theorem mem_candidates_of_isInside (ok : w.store.Indexed) (sized : w.store.grid.Sized)
    (inside : w.isInside shape element) (plain : w.PlainAt shape element)
    (notShape : w.store.type? element ≠ some .shape) (notRoot : w.store.type? element ≠ some .root) :
    element ∈ w.candidates shape z := by
  obtain ⟨e, s, geometry, he, hs, hg, within⟩ := isInside_iff.mp inside
  obtain ⟨plain, clear⟩ : geometry.Plain s.position e.position ∧ geometry.Clear e.position := by
    unfold PlainAt at plain
    rw [he, hs] at plain
    exact plain geometry hg
  obtain ⟨entry, listed, level⟩ := ok.exists_entry he (mt (ok.rooted element).mpr notRoot)
  have region : (geometry.bounds s.position).Contains entry.position :=
    ((Shape.contains_region plain within).2 clear).congr level.position.symm
  have near := Grid.mem_withinBox sized ok.files listed region
  simp only [candidates, hs, hg]
  refine List.mem_filter.mpr ⟨IdSet.mem_toList.mpr (IdSet.mem_foldl_add.mpr (.inl ?_)), ?_⟩
  · exact List.mem_append_left _ near
  · exact decide_eq_true notShape

end World

namespace Realm

/-- The region of a shape, moved out by the tolerance of edges, holds what the shape holds; the region
itself does where the tolerance takes nothing in. Whatever has happened to a realm, an element that a
check of a shape would let in is among the candidates of a pass then. -/
theorem run_region (cellSize : Single) (ids : IdSource) (root : ElementId) (ops : List Op) :
    let w := ((fresh cellSize ids root).run ops).world
    (∀ (shape : Shape) (origin p : Vec3), shape.Plain origin p → shape.contains origin p →
      (shape.bounds origin).widened.Contains p ∧
        (shape.Clear p → (shape.bounds origin).Contains p)) ∧
    ∀ (shape element : ElementId) (z : Zone), w.isInside shape element → w.PlainAt shape element →
      w.store.type? element ≠ some .shape → w.store.type? element ≠ some .root →
        element ∈ w.candidates shape z := by
  intro w
  have ok : w.store.Indexed :=
    run_keeps (fun _ turn ok => turn.indexed ok) (Store.indexed_withRoot cellSize ids root) ops
  have sized : w.store.grid.Sized :=
    run_keeps (fun _ turn sized => turn.sized sized) (Grid.sized_new cellSize) ops
  refine ⟨fun shape origin p => Shape.contains_region, fun shape element z inside plain => ?_⟩
  exact World.mem_candidates_of_isInside ok sized inside plain

def square : Shape :=
  .polygon [.zero, ⟨.ofNat 10, .zero⟩, ⟨.ofNat 10, .ofNat 10⟩, ⟨.zero, .ofNat 10⟩]
    (some (-.ofNat 100, .ofNat 100))

def yard (p : Vec3) : List Op :=
  [.world (.createShape square .zero),
    .world (.store (.insert { kind := .object 1, position := p }))]

theorem yard_region :
    let p : Vec3 := ⟨.ofNat 3, .ofNat 4, .zero⟩
    let w := ((fresh Grid.defaultCellSize (.counter 1) ⟨0⟩).run (yard p)).world
    let globe : Shape := .sphere (.ofNat 5)
    (globe.Plain .zero p ∧ globe.contains .zero p ∧ (globe.bounds .zero).widened.Contains p) ∧
    (square.Plain .zero p ∧ square.contains .zero p ∧ square.Clear p ∧
      (square.bounds .zero).Contains p) ∧
    w.isInside ⟨1⟩ ⟨2⟩ ∧ w.PlainAt ⟨1⟩ ⟨2⟩ ∧ w.store.type? ⟨2⟩ ≠ some .shape ∧
      w.store.type? ⟨2⟩ ≠ some .root ∧ ⟨2⟩ ∈ w.candidates ⟨1⟩ {} := by
  intro p w globe
  have region := run_region Grid.defaultCellSize (.counter 1) ⟨0⟩ (yard p)
  have plain : globe.Plain .zero p := by decide
  have within : globe.contains .zero p := by decide
  have square_plain : square.Plain .zero p := by decide +kernel
  have square_within : square.contains .zero p := by decide
  have clear : square.Clear p := by decide
  have inside : w.isInside ⟨1⟩ ⟨2⟩ := by decide
  have plain' : w.PlainAt ⟨1⟩ ⟨2⟩ := by decide +kernel
  have notShape : w.store.type? ⟨2⟩ ≠ some .shape := by decide
  have notRoot : w.store.type? ⟨2⟩ ≠ some .root := by decide
  exact ⟨⟨plain, within, (region.1 _ _ _ plain within).1⟩,
    ⟨square_plain, square_within, clear, (region.1 _ _ _ square_plain square_within).2 clear⟩,
    inside, plain', notShape, notRoot, region.2 _ _ {} inside plain' notShape notRoot⟩

/-- The tolerance of an edge takes in a point beside the square, and no pass looks for it there. -/
theorem object_overlooked :
    let p : Vec3 := ⟨⟨0x41200034⟩, .ofNat 5, .zero⟩
    let w := ((fresh Grid.defaultCellSize (.counter 1) ⟨0⟩).run (yard p)).world
    square.contains .zero p ∧ ¬ (square.bounds .zero).Contains p ∧ w.isInside ⟨1⟩ ⟨2⟩ ∧
      ⟨2⟩ ∉ w.candidates ⟨1⟩ {} := by decide

end Realm
end SharedWorld
