import Mathlib
import SharedWorld.Shape

/-! The edges of a polygon. The walk around it finds a point inside if the point is on an edge, or if
the ray from it crosses an odd number of edges; an even number of them lead from one side of a level to
the other. -/
namespace SharedWorld.Polygon

/-- The edges from one vertex to the one before it, in the order of the walk. -/
def walk : Vec2 → List Vec2 → List (Vec2 × Vec2)
  | _, [] => []
  | b, a :: rest => (a, b) :: walk a rest

def edges (vertices : List Vec2) : List (Vec2 × Vec2) :=
  match vertices.getLast? with
  | none => []
  | some last => walk last vertices

/-- On which side of the level of the point a vertex lies. -/
def above (p v : Vec2) : Bool := decide (p.y < v.y)

def crossing (a b p : Vec2) : Single := (b.x - a.x) * (p.y - a.y) / (b.y - a.y) + a.x

variable {a b p : Vec2} {vertices : List Vec2}

theorem crosses_eq (a b p : Vec2) :
    crosses a b p = (above p a != above p b && decide (p.x < crossing a b p)) := rfl

theorem crosses_iff : crosses a b p ↔ above p a ≠ above p b ∧ p.x < crossing a b p := by
  rw [crosses_eq, Bool.and_eq_true, bne_iff_ne, decide_eq_true_iff]

theorem mem_of_mem_walk {e : Vec2 × Vec2} (h : e ∈ walk b vertices) :
    e.1 ∈ vertices ∧ e.2 ∈ b :: vertices := by
  induction vertices generalizing b with
  | nil => cases h
  | cons a rest ih =>
    rcases List.mem_cons.mp h with rfl | h
    · exact ⟨List.mem_cons_self, List.mem_cons_self⟩
    · obtain ⟨first, second⟩ := ih h
      exact ⟨List.mem_cons_of_mem _ first, List.mem_cons_of_mem _ second⟩

theorem mem_of_mem_edges {e : Vec2 × Vec2} (h : e ∈ edges vertices) :
    e.1 ∈ vertices ∧ e.2 ∈ vertices := by
  unfold edges at h
  split at h
  · cases h
  · next last found =>
    obtain ⟨first, second⟩ := mem_of_mem_walk h
    rcases List.mem_cons.mp second with same | second
    · exact ⟨first, same ▸ List.mem_of_getLast? found⟩
    · exact ⟨first, second⟩

/-- Along a walk the side changes an even number of times just if it ends on the side where it began. -/
theorem even_changes (side : Vec2 → Bool) :
    Even ((walk b vertices).countP fun e => side e.1 != side e.2) ↔
      side ((b :: vertices).getLast (by simp)) = side b := by
  induction vertices generalizing b with
  | nil => simp [walk]
  | cons a rest ih =>
    rw [walk, List.countP_cons, List.getLast_cons_cons]
    by_cases same : side a = side b
    · rw [if_neg (by simp [same]), add_zero, ih, same]
    · rw [if_pos (by simpa using same), Nat.even_add_one, ih]
      cases ha : side a <;> cases hb : side b <;> simp_all

theorem even_changes_around (side : Vec2 → Bool) (vertices : List Vec2) :
    Even ((edges vertices).countP fun e => side e.1 != side e.2) := by
  unfold edges
  split
  · exact ⟨0, rfl⟩
  · next last found =>
    refine (even_changes side).mpr ?_
    have some : vertices ≠ [] := fun none => by simp [none] at found
    rw [List.getLast_cons some, (List.getLast_eq_iff_getLast?_eq_some some).mpr found]

def visit (p : Vec2) : (edges : List (Vec2 × Vec2)) → (inside : Bool) → Bool
  | [], inside => inside
  | e :: rest, inside =>
    if onEdge e.1 e.2 p then true else visit p rest (inside != crosses e.1 e.2 p)

theorem scan_eq_visit (p b : Vec2) (vertices : List Vec2) (inside : Bool) :
    scan p b vertices inside = visit p (walk b vertices) inside := by
  induction vertices generalizing b inside with
  | nil => rfl
  | cons a rest ih => simp only [scan, walk, visit, ih]

theorem visit_iff (es : List (Vec2 × Vec2)) (inside : Bool) : visit p es inside ↔
    (∃ e ∈ es, onEdge e.1 e.2 p) ∨ (inside ↔ Even (es.countP fun e => crosses e.1 e.2 p)) := by
  induction es generalizing inside with
  | nil => simp [visit]
  | cons e rest ih =>
    unfold visit
    split
    · next touching => exact iff_of_true rfl (.inl ⟨e, List.mem_cons_self, touching⟩)
    · next clear =>
      rw [ih, List.exists_mem_cons_iff, or_iff_right clear, List.countP_cons]
      refine or_congr_right ?_
      cases inside <;> cases crosses e.1 e.2 p <;> simp [Nat.even_add_one]

/-- The even-odd rule, with what is on an edge inside. -/
theorem contains_iff : contains vertices p ↔ 3 ≤ vertices.length ∧
    ((∃ e ∈ edges vertices, onEdge e.1 e.2 p) ∨
      Odd ((edges vertices).countP fun e => crosses e.1 e.2 p)) := by
  match vertices with
  | [] | [_] | [_, _] => simp [contains]
  | first :: second :: third :: rest =>
    have walked : edges (first :: second :: third :: rest) =
        walk ((third :: rest).getLast (by simp)) (first :: second :: third :: rest) := by
      unfold edges
      simp [List.getLast?_eq_some_getLast]
    rw [contains, walked, scan_eq_visit, visit_iff, and_iff_right (by simp)]
    simp [Nat.not_even_iff_odd]

end SharedWorld.Polygon
