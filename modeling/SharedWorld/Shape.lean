import SharedWorld.Space

/-! Collision shapes. A shape stands at an origin; a boundary belongs to its shape. Flat shapes, and
polygons without a height range, reach any height. -/
namespace SharedWorld

structure Bounds where
  min : Vec3
  max : Vec3
deriving DecidableEq, Inhabited

namespace Bounds

def around (center : Vec3) (radius : Single) : Bounds :=
  let extent : Vec3 := ⟨radius, radius, radius⟩
  ⟨center - extent, center + extent⟩

def Contains (b : Bounds) (p : Vec3) : Prop :=
  b.min.x ≤ p.x ∧ p.x ≤ b.max.x ∧ b.min.y ≤ p.y ∧ p.y ≤ b.max.y ∧ b.min.z ≤ p.z ∧ p.z ≤ b.max.z

instance (b : Bounds) (p : Vec3) : Decidable (b.Contains p) := by
  unfold Contains; infer_instance

def column (min max : Vec2) : Bounds :=
  ⟨⟨min.x, min.y, .negInfinity⟩, ⟨max.x, max.y, .infinity⟩⟩

end Bounds

namespace Polygon

/-- How far off an edge a point may lie and still be on it. -/
def tolerance : Single := ⟨0x38d1b717⟩

def onEdge (a b p : Vec2) : Bool :=
  let dx := b.x - a.x
  let dy := b.y - a.y
  let cross := dx * (p.y - a.y) - dy * (p.x - a.x)
  if tolerance * (.one + dx.abs + dy.abs) < cross.abs then false
  else
    decide (a.x.min b.x - tolerance ≤ p.x) && decide (p.x ≤ a.x.max b.x + tolerance) &&
      decide (a.y.min b.y - tolerance ≤ p.y) && decide (p.y ≤ a.y.max b.y + tolerance)

def crosses (a b p : Vec2) : Bool :=
  decide (p.y < a.y) != decide (p.y < b.y) &&
    decide (p.x < (b.x - a.x) * (p.y - a.y) / (b.y - a.y) + a.x)

/-- Walks the edges, each from a vertex to the one before it, and turns the answer over at every
crossing; a point on an edge is inside at once. -/
def scan (p : Vec2) : (previous : Vec2) → (vertices : List Vec2) → (inside : Bool) → Bool
  | _, [], inside => inside
  | b, a :: rest, inside =>
    if onEdge a b p then true else scan p a rest (inside != crosses a b p)

def contains (vertices : List Vec2) (p : Vec2) : Bool :=
  match vertices with
  | first :: second :: third :: rest =>
    scan p ((third :: rest).getLast (by simp)) (first :: second :: third :: rest) false
  | _ => false

end Polygon

inductive Shape
  | sphere (radius : Single)
  | circle (radius : Single)
  -- the origin is the least corner
  | cuboid (dimensions : Vec3)
  -- the origin is the least corner
  | rectangle (dimensions : Vec2)
  -- an upright cylinder standing on the origin
  | tube (radius height : Single)
  -- vertices are places of the world, whatever the origin; `height` is floor and ceiling
  | polygon (vertices : List Vec2) (height : Option (Single × Single))
deriving DecidableEq

namespace Shape

def contains (shape : Shape) (origin p : Vec3) : Bool :=
  match shape with
  | sphere radius => decide (p.distanceSquared origin ≤ radius * radius)
  | circle radius => decide (p.flat.distanceSquared origin.flat ≤ radius * radius)
  | cuboid dimensions => decide ((Bounds.mk origin (origin + dimensions)).Contains p)
  | rectangle dimensions =>
    decide (origin.x ≤ p.x) && decide (p.x ≤ origin.x + dimensions.x) &&
      decide (origin.y ≤ p.y) && decide (p.y ≤ origin.y + dimensions.y)
  | tube radius height =>
    decide (origin.z ≤ p.z) && decide (p.z ≤ origin.z + height) &&
      decide (p.flat.distanceSquared origin.flat ≤ radius * radius)
  | polygon vertices none => Polygon.contains vertices p.flat
  | polygon vertices (some (floor, ceiling)) =>
    if p.z < floor ∨ ceiling < p.z then false else Polygon.contains vertices p.flat

/-- The region in which an element of the world may lie within the shape. -/
def bounds (shape : Shape) (origin : Vec3) : Bounds :=
  match shape with
  | sphere radius => .around origin radius
  | circle radius =>
    .column ⟨origin.x - radius, origin.y - radius⟩ ⟨origin.x + radius, origin.y + radius⟩
  | cuboid dimensions => ⟨origin, origin + dimensions⟩
  | rectangle dimensions =>
    .column origin.flat ⟨origin.x + dimensions.x, origin.y + dimensions.y⟩
  | tube radius height =>
    ⟨⟨origin.x - radius, origin.y - radius, origin.z⟩,
      ⟨origin.x + radius, origin.y + radius, origin.z + height⟩⟩
  | polygon vertices height =>
    let least := vertices.foldl (fun m v => Vec2.mk (m.x.min v.x) (m.y.min v.y))
      ⟨.infinity, .infinity⟩
    let greatest := vertices.foldl (fun m v => Vec2.mk (m.x.max v.x) (m.y.max v.y))
      ⟨.negInfinity, .negInfinity⟩
    let (floor, ceiling) := height.getD (.negInfinity, .infinity)
    ⟨⟨least.x, least.y, floor⟩, ⟨greatest.x, greatest.y, ceiling⟩⟩

def vertices? : Shape → Option (List Vec2)
  | polygon vertices _ => some vertices
  | _ => none

def withVertices (shape : Shape) (vertices : List Vec2) : Shape :=
  match shape with
  | polygon _ height => polygon vertices height
  | other => other

end Shape
end SharedWorld
