import SharedWorld.Element
import SharedWorld.Single.Rounding

/-! The spatial index. Elements lie in square columns of the plane, one bucket for each column that
holds any; height is looked at only when an element is tested. A query that would visit more
columns than there are elements goes through the elements instead. -/
namespace SharedWorld

structure Cell where
  x : Int
  y : Int
deriving DecidableEq

structure GridEntry where
  position : Vec3
  type : ElementType
deriving DecidableEq

abbrev Buckets := List (Cell × List ElementId)

namespace Buckets

def find (cell : Cell) : Buckets → List ElementId
  | [] => []
  | (c, ids) :: rest => if c = cell then ids else find cell rest

def push (cell : Cell) (id : ElementId) : Buckets → Buckets
  | [] => [(cell, [id])]
  | (c, ids) :: rest => if c = cell then (c, ids ++ [id]) :: rest else (c, ids) :: push cell id rest

def detach (cell : Cell) (id : ElementId) : Buckets → Buckets
  | [] => []
  | (c, ids) :: rest =>
    if c = cell then
      match ids.filter (· ≠ id) with
      | [] => rest
      | kept => (c, kept) :: rest
    else (c, ids) :: detach cell id rest

end Buckets

structure Grid where
  cellSize : Single
  buckets : Buckets := []
  entries : Table ElementId GridEntry := .empty

namespace Grid

def defaultCellSize : Single := ⟨0x42480000⟩

/-- An empty index; a cell size that is not positive and finite gives way to the default. -/
def new (cellSize : Single) : Grid :=
  { cellSize :=
      if cellSize.isFinite ∧ Single.zero < cellSize then cellSize else defaultCellSize }

def axisCell (g : Grid) (v : Single) : Int := (v / g.cellSize).floor32

def cellOf (g : Grid) (x y : Single) : Cell := ⟨g.axisCell x, g.axisCell y⟩

def cellAt (g : Grid) (p : Vec3) : Cell := g.cellOf p.x p.y

def upsert (g : Grid) (id : ElementId) (position : Vec3) (type : ElementType) : Grid :=
  let cell := g.cellAt position
  let buckets := match g.entries.find? id with
    | some previous =>
      let old := g.cellAt previous.position
      if old = cell then g.buckets else (g.buckets.detach old id).push cell id
    | none => g.buckets.push cell id
  { g with buckets, entries := g.entries.insert id ⟨position, type⟩ }

def contains (g : Grid) (id : ElementId) : Bool := g.entries.contains id

def remove (g : Grid) (id : ElementId) : Grid :=
  match g.entries.find? id with
  | some entry =>
    { g with
      buckets := g.buckets.detach (g.cellAt entry.position) id
      entries := g.entries.erase id }
  | none => g

def position? (g : Grid) (id : ElementId) : Option Vec3 := (g.entries.find? id).map (·.position)

def size (g : Grid) : Nat := g.entries.size

def inCell (g : Grid) (cell : Cell) : List (ElementId × GridEntry) :=
  (g.buckets.find cell).filterMap fun id => (g.entries.find? id).map fun entry => (id, entry)

def integers (first : Int) (count : Nat) : List Int := (List.range count).map fun (n : Nat) => first + n

/-- The elements of every column that the rectangle overlaps, or all elements if those are fewer
than the columns. A rectangle turned inside out overlaps none. -/
def candidates (g : Grid) (minX minY maxX maxY : Single) : List (ElementId × GridEntry) :=
  let low := g.cellOf minX minY
  let high := g.cellOf maxX maxY
  let columns := (high.x - low.x + 1).toNat
  let rows := (high.y - low.y + 1).toNat
  if g.size < columns * rows then g.entries.entries
  else if columns * rows = 0 then []
  else
    (integers low.y rows).flatMap fun y =>
      (integers low.x columns).flatMap fun x => g.inCell ⟨x, y⟩

def withinBox (g : Grid) (b : Bounds) : List ElementId :=
  ((g.candidates b.min.x b.min.y b.max.x b.max.y).filter fun (_, e) => b.Contains e.position).map
    (·.1)

def withinSphere (g : Grid) (center : Vec3) (radius : Single) : List ElementId :=
  ((g.candidates (center.x - radius) (center.y - radius) (center.x + radius)
    (center.y + radius)).filter
      fun (_, e) => e.position.distanceSquared center ≤ radius * radius).map (·.1)

structure Wanted where
  point : Vec3
  maxSquared : Single
  type : Option ElementType

/-- An element of the wanted type takes the lead if it is in reach and strictly nearer. -/
def Wanted.consider (w : Wanted) (best : Option (ElementId × Single))
    (candidate : ElementId × GridEntry) : Option (ElementId × Single) :=
  let (id, entry) := candidate
  if w.type.all (· = entry.type) then
    let d := entry.position.distanceSquared w.point
    if d ≤ w.maxSquared ∧ best.all (fun b => d < b.2) then some (id, d) else best
  else best

/-- Column numbers have 32 bits and go round at their ends. -/
def wrap (n : Int) : Int := n.bmod 4294967296

def ringCells (center : Cell) (ring : Nat) : List Cell :=
  let span := integers (-(ring : Int)) (2 * ring + 1)
  span.flatMap fun dy => span.filterMap fun dx =>
    if dx.natAbs = ring ∨ dy.natAbs = ring then some ⟨wrap (center.x + dx), wrap (center.y + dy)⟩
    else none

/-- Goes outwards ring by ring; what lies farther out than the ring reaches cannot win against an
element within reach. -/
def searchRings (g : Grid) (w : Wanted) (center : Cell) :
    List Nat → Option (ElementId × Single) → Option (ElementId × Single)
  | [], best => best
  | ring :: rest, best =>
    let best := ((ringCells center ring).flatMap g.inCell).foldl w.consider best
    let reach := Single.ofNat ring * g.cellSize
    if best.any (fun b => b.2 ≤ reach * reach) then best else searchRings g w center rest best

def maxRing (g : Grid) (maxRadius : Single) : Nat := (maxRadius / g.cellSize).ceilNat 2147483648 + 1

def nearest (g : Grid) (point : Vec3) (maxRadius : Single) (type : Option ElementType) :
    Option (ElementId × Single) :=
  let w : Wanted := ⟨point, maxRadius * maxRadius, type⟩
  let rings := g.maxRing maxRadius
  let side := 2 * rings + 1
  let best :=
    if ¬ maxRadius.isFinite ∨ g.size < side * side then
      g.entries.entries.foldl w.consider none
    else g.searchRings w (g.cellAt point) (List.range (rings + 1)) none
  best.map fun (id, d) => (id, d.sqrt)

end Grid
end SharedWorld
