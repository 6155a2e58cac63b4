import SharedWorld.Proofs.Shape.Edges
import SharedWorld.Proofs.Single.Squares

/-! The region of a shape holds what the shape holds, as far as rounding and the tolerance of edges
allow it. -/
namespace SharedWorld

namespace Single
variable {α : Type} {x y q : Single}

theorem min_cases (x y : Single) : x.min y = x ∨ x.min y = y := by
  unfold Single.min
  split_ifs <;> simp

theorem max_cases (x y : Single) : x.max y = x ∨ x.max y = y := by
  unfold Single.max
  split_ifs <;> simp

theorem min_le (hx : x.isNaN = false) :
    x.min y ≤ x ∧ (y.isNaN = false → x.min y ≤ y) := by
  unfold Single.min
  rw [hx]
  cases hy : y.isNaN with
  | true => exact ⟨le_refl_of_number hx, nofun⟩
  | false =>
    simp only [Bool.false_eq_true, if_false]
    split_ifs with less
    · exact ⟨le_refl_of_number hx, fun _ => Single.le_of_lt less⟩
    · exact ⟨Single.le_of_not_lt hx hy less, fun _ => le_refl_of_number hy⟩

theorem le_max (hx : x.isNaN = false) :
    x ≤ x.max y ∧ (y.isNaN = false → y ≤ x.max y) := by
  unfold Single.max
  rw [hx]
  cases hy : y.isNaN with
  | true => exact ⟨le_refl_of_number hx, nofun⟩
  | false =>
    simp only [Bool.false_eq_true, if_false]
    split_ifs with less
    · exact ⟨le_refl_of_number hx, fun _ => Single.le_of_lt less⟩
    · exact ⟨Single.le_of_not_lt hy hx less, fun _ => le_refl_of_number hy⟩

theorem foldl_min_le (f : α → Single) (l : List α) (hx : x.isNaN = false) :
    l.foldl (fun m v => m.min (f v)) x ≤ x ∧
      ∀ v ∈ l, (f v).isNaN = false → l.foldl (fun m v => m.min (f v)) x ≤ f v := by
  induction l generalizing x with
  | nil => exact ⟨le_refl_of_number hx, nofun⟩
  | cons u l ih =>
    obtain ⟨le, le_first⟩ := min_le (y := f u) hx
    obtain ⟨first, rest⟩ := ih (le_iff.mp le).1
    refine ⟨Single.le_trans first le, fun v hv number => ?_⟩
    rcases List.mem_cons.mp hv with rfl | hv
    · exact Single.le_trans first (le_first number)
    · exact rest v hv number

theorem le_foldl_max (f : α → Single) (l : List α) (hx : x.isNaN = false) :
    x ≤ l.foldl (fun m v => m.max (f v)) x ∧
      ∀ v ∈ l, (f v).isNaN = false → f v ≤ l.foldl (fun m v => m.max (f v)) x := by
  induction l generalizing x with
  | nil => exact ⟨le_refl_of_number hx, nofun⟩
  | cons u l ih =>
    obtain ⟨le, le_first⟩ := le_max (y := f u) hx
    obtain ⟨first, rest⟩ := ih (le_iff.mp le).2.1
    refine ⟨Single.le_trans le first, fun v hv number => ?_⟩
    rcases List.mem_cons.mp hv with rfl | hv
    · exact Single.le_trans (le_first number) first
    · exact rest v hv number

end Single

namespace Polygon
variable {a b p : Vec2} {vertices : List Vec2} {q : Single}

def least (f : Vec2 → Single) (vertices : List Vec2) : Single :=
  vertices.foldl (fun m v => m.min (f v)) .infinity

def greatest (f : Vec2 → Single) (vertices : List Vec2) : Single :=
  vertices.foldl (fun m v => m.max (f v)) .negInfinity

theorem least_le (f : Vec2 → Single) {e : Vec2 × Vec2} (h : e ∈ edges vertices)
    (le : (f e.1).min (f e.2) ≤ q) : least f vertices ≤ q := by
  have bound {v : Vec2} (hv : v ∈ vertices) (le : f v ≤ q) : least f vertices ≤ q :=
    Single.le_trans ((Single.foldl_min_le f vertices rfl).2 v hv (Single.le_iff.mp le).1) le
  obtain ⟨first, second⟩ := mem_of_mem_edges h
  rcases Single.min_cases (f e.1) (f e.2) with same | same <;> rw [same] at le
  · exact bound first le
  · exact bound second le

theorem le_greatest (f : Vec2 → Single) {e : Vec2 × Vec2} (h : e ∈ edges vertices)
    (le : q ≤ (f e.1).max (f e.2)) : q ≤ greatest f vertices := by
  have bound {v : Vec2} (hv : v ∈ vertices) (le : q ≤ f v) : q ≤ greatest f vertices :=
    Single.le_trans le ((Single.le_foldl_max f vertices rfl).2 v hv (Single.le_iff.mp le).2.1)
  obtain ⟨first, second⟩ := mem_of_mem_edges h
  rcases Single.max_cases (f e.1) (f e.2) with same | same <;> rw [same] at le
  · exact bound first le
  · exact bound second le

end Polygon

theorem Vec2.foldl_mk (op : Single → Single → Single) (vertices : List Vec2) (x y : Single) :
    vertices.foldl (fun m v => Vec2.mk (op m.x v.x) (op m.y v.y)) ⟨x, y⟩ =
      ⟨vertices.foldl (fun m v => op m v.x) x, vertices.foldl (fun m v => op m v.y) y⟩ := by
  induction vertices generalizing x y with
  | nil => rfl
  | cons v vertices ih => exact ih (op x v.x) (op y v.y)

theorem Shape.bounds_polygon (vertices : List Vec2) (height : Option (Single × Single))
    (origin : Vec3) : (polygon vertices height).bounds origin =
      ⟨⟨Polygon.least (·.x) vertices, Polygon.least (·.y) vertices,
          (height.getD (.negInfinity, .infinity)).1⟩,
        ⟨Polygon.greatest (·.x) vertices, Polygon.greatest (·.y) vertices,
          (height.getD (.negInfinity, .infinity)).2⟩⟩ := by
  unfold bounds Polygon.least Polygon.greatest
  dsimp only
  rw [Vec2.foldl_mk Single.min, Vec2.foldl_mk Single.max]

namespace Polygon

theorem tolerance_finite : Single.Finite tolerance.view := Single.finite_of_isFinite (by decide)

theorem tolerance_nonneg : 0 ≤ tolerance.amount :=
  (Single.le_iff.mp (by decide : Single.zero ≤ tolerance)).2.2

end Polygon

/-- The box with its sides moved out by the tolerance of edges. -/
def Bounds.widened (b : Bounds) : Bounds :=
  ⟨⟨b.min.x - Polygon.tolerance, b.min.y - Polygon.tolerance, b.min.z⟩,
    ⟨b.max.x + Polygon.tolerance, b.max.y + Polygon.tolerance, b.max.z⟩⟩

theorem Bounds.Contains.widened {b : Bounds} {p : Vec3} (h : b.Contains p) :
    b.widened.Contains p := by
  have less {x y : Single} (h : x ≤ y) : x - Polygon.tolerance ≤ y :=
    Single.le_trans (Single.sub_le_self (Single.le_iff.mp h).1 Polygon.tolerance_finite
      Polygon.tolerance_nonneg) h
  have more {x y : Single} (h : x ≤ y) : x ≤ y + Polygon.tolerance :=
    Single.le_trans h (Single.le_add_right (Single.le_iff.mp h).2.1 Polygon.tolerance_finite
      Polygon.tolerance_nonneg)
  obtain ⟨left, right, bottom, top, height⟩ := h
  exact ⟨less left, more right, less bottom, more top, height⟩

namespace Polygon
variable {vertices : List Vec2} {p : Vec2}

/-- Rounding does not take the edge beyond its ends: where it meets the level of the point is computed
as between them. -/
def Straight (a b p : Vec2) : Prop :=
  above p a ≠ above p b → a.x.min b.x ≤ crossing a b p ∧ crossing a b p ≤ a.x.max b.x

instance (a b p : Vec2) : Decidable (Straight a b p) := inferInstanceAs (Decidable (_ → _))

/-- Nor does the tolerance: a point that is on the edge is in the box of the edge. -/
def Clear (a b p : Vec2) : Prop :=
  onEdge a b p → a.x.min b.x ≤ p.x ∧ p.x ≤ a.x.max b.x ∧ a.y.min b.y ≤ p.y ∧ p.y ≤ a.y.max b.y

instance (a b p : Vec2) : Decidable (Clear a b p) := inferInstanceAs (Decidable (_ → _))

theorem numbers_of_crossing {a b : Vec2} (number : (crossing a b p).isNaN = false) :
    a.y.isNaN = false ∧ b.y.isNaN = false ∧ p.y.isNaN = false := by
  have quotient := (Single.numbers_of_add number).1
  obtain ⟨product, height⟩ := Single.numbers_of_div quotient
  obtain ⟨py, ay⟩ := Single.numbers_of_sub (Single.numbers_of_mul product).2
  exact ⟨ay, (Single.numbers_of_sub height).1, py⟩

theorem level_between {a b : Vec2} (changes : above p a ≠ above p b)
    (number : (crossing a b p).isNaN = false) : a.y.min b.y ≤ p.y ∧ p.y ≤ a.y.max b.y := by
  obtain ⟨ay, by', py⟩ := numbers_of_crossing number
  obtain ⟨min_first, min_second⟩ := Single.min_le (y := b.y) ay
  obtain ⟨max_first, max_second⟩ := Single.le_max (y := b.y) ay
  by_cases first : p.y < a.y
  · have second : ¬ p.y < b.y := fun second => changes (by simp [above, first, second])
    exact ⟨Single.le_trans (min_second by') (Single.le_of_not_lt py by' second),
      Single.le_trans (Single.le_of_lt first) max_first⟩
  · have second : p.y < b.y := by
      by_contra second
      exact changes (by simp [above, first, second])
    exact ⟨Single.le_trans min_first (Single.le_of_not_lt py ay first),
      Single.le_trans (Single.le_of_lt second) (max_second by')⟩

theorem crossed_box (straight : ∀ e ∈ edges vertices, Straight e.1 e.2 p)
    (odd : Odd ((edges vertices).countP fun e => crosses e.1 e.2 p)) :
    least (·.x) vertices ≤ p.x ∧ p.x ≤ greatest (·.x) vertices ∧
      least (·.y) vertices ≤ p.y ∧ p.y ≤ greatest (·.y) vertices := by
  obtain ⟨e, he, crossed⟩ := List.countP_pos_iff.mp odd.pos
  obtain ⟨changes, left_of⟩ := crosses_iff.mp crossed
  obtain ⟨_, right⟩ := straight e he changes
  obtain ⟨px, number, _⟩ := Single.lt_iff.mp left_of
  obtain ⟨bottom, top⟩ := level_between changes number
  refine ⟨?_, le_greatest _ he (Single.le_trans (Single.le_of_lt left_of) right),
    least_le _ he bottom, le_greatest _ he top⟩
  -- Left of all vertices the ray crosses every edge that meets its level, an even number of them.
  by_contra outside
  have leftmost : p.x < least (·.x) vertices := by
    refine Single.lt_of_not_le ?_ px outside
    exact (Single.le_iff.mp (Single.foldl_min_le Vec2.x vertices rfl).1).1
  have all : (edges vertices).countP (fun e => crosses e.1 e.2 p) =
      (edges vertices).countP fun e => above p e.1 != above p e.2 := by
    refine List.countP_congr fun e he => ?_
    rw [crosses_iff, bne_iff_ne]
    refine and_iff_left_of_imp fun changes => ?_
    exact Single.lt_of_lt_of_le leftmost (least_le _ he (straight e he changes).1)
  rw [all] at odd
  exact Nat.not_odd_iff_even.mpr (even_changes_around _ vertices) odd

theorem touched_box {e : Vec2 × Vec2} (he : e ∈ edges vertices) (touching : onEdge e.1 e.2 p)
    (clear : Clear e.1 e.2 p) :
    least (·.x) vertices ≤ p.x ∧ p.x ≤ greatest (·.x) vertices ∧
      least (·.y) vertices ≤ p.y ∧ p.y ≤ greatest (·.y) vertices := by
  obtain ⟨left, right, bottom, top⟩ := clear touching
  exact ⟨least_le _ he left, le_greatest _ he right, least_le _ he bottom, le_greatest _ he top⟩

theorem touching_box {e : Vec2 × Vec2} (he : e ∈ edges vertices) (touching : onEdge e.1 e.2 p) :
    least (·.x) vertices - tolerance ≤ p.x ∧ p.x ≤ greatest (·.x) vertices + tolerance ∧
      least (·.y) vertices - tolerance ≤ p.y ∧ p.y ≤ greatest (·.y) vertices + tolerance := by
  have below (f : Vec2 → Single) {q : Single} (h : (f e.1).min (f e.2) - tolerance ≤ q) :
      least f vertices - tolerance ≤ q := by
    have number := (Single.numbers_of_sub (Single.le_iff.mp h).1).1
    have first := least_le f he (Single.le_refl_of_number number)
    exact Single.le_trans (Single.sub_le_sub_right tolerance_finite first) h
  have above (f : Vec2 → Single) {q : Single} (h : q ≤ (f e.1).max (f e.2) + tolerance) :
      q ≤ greatest f vertices + tolerance := by
    have number := (Single.numbers_of_add (Single.le_iff.mp h).2.1).1
    have last := le_greatest f he (Single.le_refl_of_number number)
    exact Single.le_trans h (Single.add_le_add_right tolerance_finite last)
  unfold onEdge at touching
  dsimp only at touching
  split at touching
  · exact absurd touching nofun
  · simp only [Bool.and_eq_true, decide_eq_true_iff] at touching
    obtain ⟨⟨⟨left, right⟩, bottom⟩, top⟩ := touching
    exact ⟨below Vec2.x left, above Vec2.x right, below Vec2.y bottom, above Vec2.y top⟩

end Polygon

namespace Single

/-- The way from `o` to `p`, as it is computed, leads from `o` to `p` at least, in either direction. -/
structure Spans (o p : Single) : Prop where
  below : o - (p - o).abs ≤ p
  above : p ≤ o + (p - o).abs

instance (o p : Single) : Decidable (Spans o p) :=
  decidable_of_iff (_ ∧ _) ⟨fun ⟨h, h'⟩ => ⟨h, h'⟩, fun ⟨h, h'⟩ => ⟨h, h'⟩⟩

/-- A radius that can be told by its square. -/
structure Radius (r : Single) : Prop where
  nonneg : .zero ≤ r
  normal : leastNormal ≤ r * r
  finite : r * r < .infinity

instance (r : Single) : Decidable (Radius r) :=
  decidable_of_iff (_ ∧ _ ∧ _) ⟨fun ⟨h, h', h''⟩ => ⟨h, h', h''⟩, fun ⟨h, h', h''⟩ => ⟨h, h', h''⟩⟩

variable {o p r x y s : Single}

theorem Radius.finite_view (h : Radius r) : Finite r.view := finite_of_square_lt h.finite

theorem Spans.within (h : Spans o p) (radius : Radius r) (le : (p - o) * (p - o) ≤ r * r) :
    o - r ≤ p ∧ p ≤ o + r := by
  have near : (p - o).abs ≤ r :=
    abs_le_of_square_le radius.nonneg radius.normal radius.finite le
  obtain ⟨number, _, bound⟩ := le_iff.mp near
  have finite : Finite (p - o).abs.view := by
    have reached := (le_abs_self _).trans_lt (finite_iff.mp radius.finite_view).2
    refine finite_iff.mpr ⟨number, ?_⟩
    rw [abs_amount, abs_abs, ← abs_amount]
    exact bound.trans_lt reached
  have origin := (numbers_of_sub ((abs_isNaN _).symm.trans number)).2
  exact ⟨Single.le_trans (Single.sub_le_sub_left origin finite radius.finite_view near) h.below,
    Single.le_trans h.above (Single.add_le_add_left origin finite radius.finite_view near)⟩

theorem add_nonneg_amount (hx : 0 ≤ x.amount) (hy : 0 ≤ y.amount) : 0 ≤ (x + y).amount := by
  cases number : (x + y).isNaN with
  | true =>
    rw [amount, view_eq_notANumber.mpr number]
    rfl
  | false =>
    obtain ⟨nx, ny⟩ := numbers_of_add number
    exact (sum_nearest hx hy nx ny).nonneg (add_nonneg hx hy)

theorem parts_le_of_le (hx : 0 ≤ x.amount) (hy : 0 ≤ y.amount) (h : x + y ≤ s) : x ≤ s ∧ y ≤ s := by
  obtain ⟨first, second⟩ := parts_le hx hy (le_iff.mp h).1
  exact ⟨Single.le_trans first h, Single.le_trans second h⟩

end Single

namespace Shape
variable {origin p : Vec3} {shape : Shape}

theorem flat_within {r : Single} (radius : r.Radius) (x : origin.x.Spans p.x)
    (y : origin.y.Spans p.y) (h : p.flat.distanceSquared origin.flat ≤ r * r) :
    (origin.x - r ≤ p.x ∧ p.x ≤ origin.x + r) ∧ (origin.y - r ≤ p.y ∧ p.y ≤ origin.y + r) := by
  obtain ⟨dx, dy⟩ := Single.parts_le_of_le (Single.square_nonneg _) (Single.square_nonneg _) h
  exact ⟨x.within radius dx, y.within radius dy⟩

/-- What rounding, numbers that are none and a radius without a square can do to a shape is not done at
this point. -/
def Plain (shape : Shape) (origin p : Vec3) : Prop :=
  match shape with
  | sphere radius =>
    radius.Radius ∧ origin.x.Spans p.x ∧ origin.y.Spans p.y ∧ origin.z.Spans p.z
  | circle radius =>
    radius.Radius ∧ origin.x.Spans p.x ∧ origin.y.Spans p.y ∧ p.z.isNaN = false
  | cuboid _ => True
  | rectangle _ => p.z.isNaN = false
  | tube radius _ => radius.Radius ∧ origin.x.Spans p.x ∧ origin.y.Spans p.y
  | polygon vertices height =>
    (∀ e ∈ Polygon.edges vertices, Polygon.Straight e.1 e.2 p.flat) ∧ p.z.isNaN = false ∧
      ∀ range ∈ height, range.1.isNaN = false ∧ range.2.isNaN = false

instance (origin p : Vec3) : (shape : Shape) → Decidable (shape.Plain origin p)
  | sphere _ => inferInstanceAs (Decidable (_ ∧ _ ∧ _ ∧ _))
  | circle _ => inferInstanceAs (Decidable (_ ∧ _ ∧ _ ∧ _))
  | cuboid _ => inferInstanceAs (Decidable True)
  | rectangle _ => inferInstanceAs (Decidable (_ = _))
  | tube _ _ => inferInstanceAs (Decidable (_ ∧ _ ∧ _))
  | polygon vertices height => inferInstanceAs (Decidable
      ((∀ e ∈ Polygon.edges vertices, Polygon.Straight e.1 e.2 p.flat) ∧ p.z.isNaN = false ∧
        ∀ range ∈ height, range.1.isNaN = false ∧ range.2.isNaN = false))

/-- The tolerance of edges does not take the point in from beside an edge. -/
def Clear (shape : Shape) (p : Vec3) : Prop :=
  match shape with
  | polygon vertices _ => ∀ e ∈ Polygon.edges vertices, Polygon.Clear e.1 e.2 p.flat
  | _ => True

instance (p : Vec3) : (shape : Shape) → Decidable (shape.Clear p)
  | polygon vertices _ => inferInstanceAs (Decidable
      (∀ e ∈ Polygon.edges vertices, Polygon.Clear e.1 e.2 p.flat))
  | sphere _ | circle _ | cuboid _ | rectangle _ | tube _ _ => inferInstanceAs (Decidable True)

theorem any_height {z : Single} (h : z.isNaN = false) : .negInfinity ≤ z ∧ z ≤ .infinity :=
  ⟨Single.bottom_le rfl h, Single.le_top h rfl⟩

theorem contains_polygon {vertices : List Vec2} {height : Option (Single × Single)}
    (z : p.z.isNaN = false) (range : ∀ range ∈ height, range.1.isNaN = false ∧ range.2.isNaN = false)
    (within : (polygon vertices height).contains origin p) : Polygon.contains vertices p.flat ∧
      (height.getD (.negInfinity, .infinity)).1 ≤ p.z ∧
      p.z ≤ (height.getD (.negInfinity, .infinity)).2 := by
  cases height with
  | none => exact ⟨within, any_height z⟩
  | some height =>
    obtain ⟨low, high⟩ := height
    obtain ⟨floor, ceiling⟩ := range (low, high) rfl
    have within : (if p.z < low ∨ high < p.z then false else Polygon.contains vertices p.flat) =
      true := within
    split_ifs at within with out
    obtain ⟨above, below⟩ := not_or.mp out
    exact ⟨within, Single.le_of_not_lt z floor above, Single.le_of_not_lt ceiling z below⟩

/-- The region of a shape holds what the shape holds, or does when it is moved out by the tolerance of
edges. -/
theorem contains_region (plain : shape.Plain origin p) (within : shape.contains origin p) :
    (shape.bounds origin).widened.Contains p ∧
      (shape.Clear p → (shape.bounds origin).Contains p) := by
  have both {b : Bounds} {clear : Prop} (region : b.Contains p) :
      b.widened.Contains p ∧ (clear → b.Contains p) := ⟨region.widened, fun _ => region⟩
  cases shape with
  | sphere radius =>
    obtain ⟨radius, x, y, z⟩ := plain
    have near : p.distanceSquared origin ≤ _ := of_decide_eq_true within
    obtain ⟨flat, dz⟩ := Single.parts_le_of_le
      (Single.add_nonneg_amount (Single.square_nonneg _) (Single.square_nonneg _))
      (Single.square_nonneg _) near
    obtain ⟨⟨left, right⟩, bottom, top⟩ := flat_within radius x y flat
    obtain ⟨floor, ceiling⟩ := z.within radius dz
    exact both ⟨left, right, bottom, top, floor, ceiling⟩
  | circle radius =>
    obtain ⟨radius, x, y, z⟩ := plain
    obtain ⟨⟨left, right⟩, bottom, top⟩ := flat_within radius x y (of_decide_eq_true within)
    exact both ⟨left, right, bottom, top, any_height z⟩
  | cuboid dimensions => exact both (of_decide_eq_true within)
  | rectangle dimensions =>
    simp only [contains, Bool.and_eq_true, decide_eq_true_iff] at within
    obtain ⟨⟨⟨left, right⟩, bottom⟩, top⟩ := within
    exact both ⟨left, right, bottom, top, any_height plain⟩
  | tube radius height =>
    obtain ⟨radius, x, y⟩ := plain
    simp only [contains, Bool.and_eq_true, decide_eq_true_iff] at within
    obtain ⟨⟨floor, ceiling⟩, near⟩ := within
    obtain ⟨⟨left, right⟩, bottom, top⟩ := flat_within radius x y near
    exact both ⟨left, right, bottom, top, floor, ceiling⟩
  | polygon vertices height =>
    obtain ⟨straight, z, range⟩ := plain
    obtain ⟨within, heights⟩ := contains_polygon z range within
    rw [bounds_polygon]
    obtain ⟨_, ⟨e, he, touching⟩ | odd⟩ := Polygon.contains_iff.mp within
    · refine ⟨?_, fun clear => ?_⟩
      · obtain ⟨left, right, bottom, top⟩ := Polygon.touching_box he touching
        exact ⟨left, right, bottom, top, heights⟩
      · obtain ⟨left, right, bottom, top⟩ := Polygon.touched_box he touching (clear e he)
        exact ⟨left, right, bottom, top, heights⟩
    · obtain ⟨left, right, bottom, top⟩ := Polygon.crossed_box straight odd
      exact both ⟨left, right, bottom, top, heights⟩

-- the square of a negative radius is that of a positive one
example : (sphere (-.one)).contains .zero .zero ∧ ¬ ((sphere (-.one)).bounds .zero).Contains .zero := by
  decide

-- the way from -1 to 16777216 is computed as 16777216
example : let origin : Vec3 := ⟨-.one, .zero, .zero⟩
    let p : Vec3 := ⟨⟨0x4b800000⟩, .zero, .zero⟩
    let sphere := sphere ⟨0x4b800000⟩
    sphere.contains origin p ∧ ¬ (sphere.bounds origin).Contains p := by
  decide

end Shape
end SharedWorld
