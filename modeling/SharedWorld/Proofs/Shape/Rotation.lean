import Mathlib
import SharedWorld.Proofs.Shape.Edges

/-! A polygon has no first vertex. Its edges lead from each vertex to the one before it, all around;
what it holds depends on the edges only, not on where the walk begins or which edge it comes to first. -/
namespace SharedWorld

namespace Polygon
variable {b p : Vec2} {vertices : List Vec2}

/-- The edge from the `i`-th vertex to the one before it; the last vertex comes before the first. -/
def edge (vertices : List Vec2) (i : Fin vertices.length) : Vec2 × Vec2 :=
  (vertices.get i, vertices.get ⟨(i + (vertices.length - 1)) % vertices.length, Nat.mod_lt _ i.pos⟩)

theorem length_walk (b : Vec2) (vertices : List Vec2) :
    (walk b vertices).length = vertices.length := by
  induction vertices generalizing b with
  | nil => rfl
  | cons a rest ih => simp [walk, ih]

theorem getElem_walk {i : Nat} (h : i < (walk b vertices).length) : (walk b vertices)[i] =
    (vertices.get ⟨i, length_walk b vertices ▸ h⟩,
      (b :: vertices).get ⟨i, Nat.lt_succ_of_lt (length_walk b vertices ▸ h)⟩) := by
  induction vertices generalizing b i with
  | nil => simp [walk] at h
  | cons a rest ih =>
    cases i with
    | zero => rfl
    | succ i => simpa [walk] using ih _

theorem length_edges (vertices : List Vec2) : (edges vertices).length = vertices.length := by
  unfold edges
  split
  · next none => simp [List.getLast?_eq_none_iff.mp none]
  · exact length_walk ..

theorem edges_eq_ofFn (vertices : List Vec2) : edges vertices = List.ofFn (edge vertices) := by
  refine List.ext_getElem (by simp [length_edges]) fun i h _ => ?_
  have bound : i < vertices.length := length_edges vertices ▸ h
  have some : vertices ≠ [] := List.ne_nil_of_length_pos (Nat.zero_lt_of_lt bound)
  have walked : edges vertices = walk (vertices.getLast some) vertices := by
    unfold edges
    rw [List.getLast?_eq_some_getLast some]
  simp only [walked, getElem_walk, List.getElem_ofFn, edge]
  congr 1
  cases i with
  | zero => simp [List.getLast_eq_getElem, Nat.mod_eq_of_lt (Nat.sub_one_lt_of_lt bound)]
  | succ i =>
    have wrap : (i + 1 + (vertices.length - 1)) % vertices.length = i := by
      rw [show i + 1 + (vertices.length - 1) = i + vertices.length by omega, Nat.add_mod_right]
      exact Nat.mod_eq_of_lt (Nat.lt_of_succ_lt bound)
    simp [wrap]

theorem edges_rotate (vertices : List Vec2) (n : Nat) :
    edges (vertices.rotate n) = (edges vertices).rotate n := by
  refine List.ext_getElem (by simp [length_edges]) fun i _ _ => ?_
  have around : i + (vertices.length - 1) + n = i + n + (vertices.length - 1) := Nat.add_right_comm ..
  simp [edges_eq_ofFn, List.getElem_rotate, edge, around]

theorem contains_eq_visit : contains vertices p ↔
    3 ≤ vertices.length ∧ visit p (edges vertices) false := by
  rw [contains_iff, visit_iff]
  simp [Nat.not_even_iff_odd]

/-- It does not matter in which order edges are looked at. -/
theorem visit_perm {es fs : List (Vec2 × Vec2)} (h : es.Perm fs) (inside : Bool) :
    visit p es inside = visit p fs inside := by
  rw [Bool.eq_iff_iff, visit_iff, visit_iff, h.countP_eq]
  simp only [h.mem_iff]

theorem contains_rotate (vertices : List Vec2) (n : Nat) (p : Vec2) :
    contains (vertices.rotate n) p = contains vertices p := by
  rw [Bool.eq_iff_iff, contains_eq_visit, contains_eq_visit, edges_rotate, List.length_rotate,
    visit_perm (List.rotate_perm (edges vertices) n)]

theorem countP_edges (f : Vec2 × Vec2 → Bool) (vertices : List Vec2) :
    (edges vertices).countP f = (Finset.univ.filter fun i => f (edge vertices i)).card := by
  rw [edges_eq_ofFn, List.ofFn_eq_map, List.countP_map, Fin.univ_def]
  simp [Finset.card, Finset.filter, List.countP_eq_length_filter, Function.comp_def]

end Polygon

namespace Shape
open SharedWorld.Polygon

def Level (height : Option (Single × Single)) (p : Vec3) : Prop :=
  ∀ range, height = some range → ¬ p.z < range.1 ∧ ¬ range.2 < p.z

theorem polygon_contains_iff (vertices : List Vec2) (height : Option (Single × Single))
    (origin p : Vec3) : (polygon vertices height).contains origin p ↔
      Level height p ∧ Polygon.contains vertices p.flat := by
  cases height with
  | none => simp [contains, Level]
  | some range =>
    obtain ⟨floor, ceiling⟩ := range
    simp only [contains, Level, Option.some.injEq, forall_eq', ← not_or]
    split <;> simp_all

/-- A polygon holds a point at its height that is on one of its edges, or from which a ray crosses an odd
number of them. Any vertex may come first, and any order of the edges gives the same answer. -/
theorem contains_around (vertices : List Vec2) (height : Option (Single × Single))
    (origin p : Vec3) :
    (∀ n, (polygon (vertices.rotate n) height).contains origin p =
      (polygon vertices height).contains origin p) ∧
    ((polygon vertices height).contains origin p ↔ Level height p ∧ 3 ≤ vertices.length ∧
      ((∃ i, onEdge (edge vertices i).1 (edge vertices i).2 p.flat) ∨
        Odd (Finset.univ.filter fun i =>
          crosses (edge vertices i).1 (edge vertices i).2 p.flat = true).card)) ∧
    ∀ order : Equiv.Perm (Fin vertices.length),
      ((polygon vertices height).contains origin p ↔ Level height p ∧ 3 ≤ vertices.length ∧
        visit p.flat (List.ofFn fun i => edge vertices (order i)) false) := by
  refine ⟨fun n => ?_, ?_, fun order => ?_⟩
  · rw [Bool.eq_iff_iff, polygon_contains_iff, polygon_contains_iff, contains_rotate]
  · rw [polygon_contains_iff, contains_iff, countP_edges]
    simp only [edges_eq_ofFn, List.mem_ofFn, exists_exists_eq_and]
  · have all : (List.ofFn fun i => edge vertices (order i)).Perm (edges vertices) := by
      rw [edges_eq_ofFn]
      exact order.ofFn_comp_perm (edge vertices)
    rw [polygon_contains_iff, contains_eq_visit, visit_perm all]

end Shape
end SharedWorld
