import SharedWorld.Listeners
import SharedWorld.World.Grid
import SharedWorld.World.IdSource

/-! The elements of the world, by identifier, with an index by type and one by place. All elements
but the root hang below it in one tree. -/
namespace SharedWorld

inductive Watcher
  -- it is noted; then perhaps an element is checked against a shape, and another removed
  | note (tag : String) (check remove : Option ElementId)
  -- the element is inside this shape, and leaves it
  | member (shape : ElementId)
  -- the element is a shape that is kept track of, and no longer is
  | shape
deriving DecidableEq

structure Resident where
  element : Element
  destroyed : Listeners Watcher := {}

structure Store where
  root : ElementId
  residents : Table ElementId Resident
  types : Table ElementType IdSet
  grid : Grid
  ids : IdSource

namespace Store

def withRoot (cellSize : Single) (ids : IdSource) (root : ElementId) : Store where
  root := root
  residents := Table.empty.insert root { element := { kind := .root, id := root } }
  types := Table.empty.insert .root (IdSet.add .empty root)
  grid := .new cellSize
  ids := ids

def new (cellSize : Single) (ids : IdSource) : Except WorldError Store :=
  match ids.next with
  | (.ok root, ids) => .ok (withRoot cellSize ids root)
  | (.error e, _) => .error e

def withCellSize (cellSize : Single) : Store := withRoot cellSize (.counter 1) ⟨0⟩

def find? (s : Store) (id : ElementId) : Option Element :=
  (s.residents.find? id).map (·.element)

def contains (s : Store) (id : ElementId) : Bool := s.residents.contains id

def size (s : Store) : Nat := s.residents.size

def type? (s : Store) (id : ElementId) : Option ElementType := (s.find? id).map (·.type)

def parent? (s : Store) (id : ElementId) : Option ElementId := (s.find? id).bind (·.parent)

def target? (s : Store) (id : ElementId) : Option ElementId := (s.find? id).bind (·.target?)

def children (s : Store) (id : ElementId) : List ElementId :=
  ((s.find? id).map (·.children.toList)).getD []

def idsByType (s : Store) (type : ElementType) : List ElementId :=
  ((s.types.find? type).map (·.toList)).getD []

def elementsByType (s : Store) (type : ElementType) : List Element :=
  (s.idsByType type).filterMap s.find?

def countByType (s : Store) : List (ElementType × Nat) :=
  (s.types.entries.map fun (type, ids) => (type, ids.size)).filter fun (_, n) => 0 < n

def player (s : Store) (id : ElementId) : Except WorldError Player :=
  match s.find? id with
  | none => .error (.notFound id)
  | some e =>
    match e.player? with
    | some p => .ok p
    | none => .error (.wrongType e.id .player e.type)

def vehicle (s : Store) (id : ElementId) : Except WorldError Vehicle :=
  match s.find? id with
  | none => .error (.notFound id)
  | some e =>
    match e.vehicle? with
    | some v => .ok v
    | none => .error (.wrongType e.id .vehicle e.type)

def modify (s : Store) (id : ElementId) (f : Element → Element) : Store :=
  { s with residents := s.residents.modify id fun r => { r with element := f r.element } }

def modifyAll (s : Store) (ids : List ElementId) (f : Element → Element) : Store :=
  ids.foldl (fun s id => s.modify id f) s

def modifyWatchers (s : Store) (id : ElementId) (f : Listeners Watcher → Listeners Watcher) :
    Store :=
  { s with residents := s.residents.modify id fun r => { r with destroyed := f r.destroyed } }

/-- Changes an element; the spatial index follows it where it moves. -/
def update (s : Store) (id : ElementId) (f : Element → Element) : Except WorldError Store :=
  match s.find? id with
  | none => .error (.notFound id)
  | some before =>
    let after := f before
    let s := s.modify id f
    if after.position.same before.position ∨ after.type = .root then .ok s
    else .ok { s with grid := s.grid.upsert id after.position after.type }

def freshId (s : Store) : (tries : Nat) → IdSource → Except WorldError ElementId × IdSource
  | 0, ids => (.error .idSpaceExhausted, ids)
  | n + 1, ids =>
    match ids.next with
    | (.error e, ids) => (.error e, ids)
    | (.ok id, ids) => if s.contains id then freshId s n ids else (.ok id, ids)

/-- Enough tries: a counter meets every live element at most once, a list comes to its end. -/
def tries (s : Store) : Nat :=
  -- a counter meets every live element at most once, a list comes to its end
  match s.ids with
  | .counter _ => s.size + 1
  | .listed remaining => remaining.length + 1

/-- The identifier that a new element is to have: the one it asks for, or a fresh one. -/
def assignId (s : Store) (wanted : ElementId) : Except WorldError ElementId × IdSource :=
  if wanted.isValid then
    if s.contains wanted then (.error (.duplicateId wanted), s.ids)
    else (.ok wanted, s.ids.reserve wanted)
  else s.freshId s.tries s.ids

def place (s : Store) (id : ElementId) (e : Element) : Store :=
  let e := { e.released with id, parent := some s.root }
  let s := s.modify s.root (·.addChild id)
  { s with
    residents := s.residents.insert id { element := e }
    types := s.types.insert e.type (((s.types.find? e.type).getD .empty).add id)
    grid := s.grid.upsert id e.position e.type }

def insert (s : Store) (e : Element) : Except WorldError ElementId × Store :=
  if e.type = .root then (.error .duplicateRoot, s)
  else
    match s.assignId e.id with
    | (.error err, ids) => (.error err, { s with ids })
    | (.ok id, ids) => (.ok id, { s with ids }.place id e)

def adopt (s : Store) (child : ElementId) : Store :=
  (s.modify child ({ · with parent := some s.root })).modify s.root (·.addChild child)

/-- Takes an element out of the tree; its children go to the root. -/
def unhang (s : Store) (id : ElementId) (e : Element) : Store :=
  let s := s.modifyAll e.parent.toList (·.dropChild id)
  e.children.toList.foldl adopt s

def untie (s : Store) (id : ElementId) (e : Element) : Store :=
  let s := s.modifyAll e.target?.toList (·.dropAttached id)
  s.modifyAll e.attached.toList ({ · with attachment := none })

/-- Ends the tow pairs of a vehicle and takes out its driver, or takes a player off the driver's
seat. -/
def vacate (s : Store) (id : ElementId) (e : Element) : Store :=
  match e.kind with
  | .vehicle v =>
    let s := s.modifyAll v.towing.toList (·.updateVehicle ({ · with towedBy := none }))
    let s := s.modifyAll v.towedBy.toList (·.updateVehicle ({ · with towing := none }))
    s.modifyAll v.driver.toList (·.updatePlayer fun p =>
      if p.vehicle = some id then { p with vehicle := none } else p)
  | .player p =>
    s.modifyAll p.vehicle.toList (·.updateVehicle fun v =>
      if v.driver = some id then { v with driver := none } else v)
  | _ => s

def unlink (s : Store) (id : ElementId) (e : Element) : Store :=
  ((s.unhang id e).untie id e).vacate id e

def evict (s : Store) (id : ElementId) : Option (Element × Store) := do
  let e ← s.find? id
  let s := s.unlink id e
  let left ← s.find? id
  let gone :=
    { left with parent := none, children := .empty, attachment := none, attached := .empty }
  return (gone,
    { s with
      residents := s.residents.erase id
      types := s.types.modify e.type (·.erase id)
      grid := s.grid.remove id })

/-- Whether going up from `start` comes to `goal`, in so many steps at most. -/
def reaches (up : ElementId → Option ElementId) (goal : ElementId) : Nat → ElementId → Bool
  | 0, _ => false
  | n + 1, current =>
    if current = goal then true
    else
      match up current with
      | some next => reaches up goal n next
      | none => false

def setParent (s : Store) (child parent : ElementId) : Except WorldError Store :=
  if child = s.root then .error .rootIsFixed
  else
    match s.find? child with
    | none => .error (.notFound child)
    | some e =>
      if ¬ s.contains parent then .error (.notFound parent)
      else if e.parent = some parent then .ok s
      else if reaches s.parent? child (s.size + 1) parent then .error (.cyclicParent child parent)
      else
        let s := s.modifyAll e.parent.toList (·.dropChild child)
        let s := s.modify parent (·.addChild child)
        .ok (s.modify child ({ · with parent := some parent }))

end Store
end SharedWorld
