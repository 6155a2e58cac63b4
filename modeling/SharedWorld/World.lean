import SharedWorld.Event
import SharedWorld.World.Relations

/-! The world: its elements, the shapes that are kept track of, and a journal of what those outside
hear of it. A tracked shape has members, the elements that were last found within it; for each
member it watches for the end of the element, so that an element that is destroyed inside leaves. -/
namespace SharedWorld

inductive Crossing
  | entered | left
deriving DecidableEq

def Crossing.label : Crossing → String
  | entered => "Entered"
  | left => "Left"

structure Zone where
  enabled : Bool := true
  -- the elements inside, each with the subscription to its end
  members : Table ElementId SubscriptionId := .empty
  -- who is told of elements that enter; a listener is known by its tag
  entered : Listeners String := {}
  left : Listeners String := {}

inductive Call
  | destroyed (tag : String) (id : ElementId) (live : Bool)
  | checked (tag : String) (shape : ElementId) (answer : Except WorldError (Option Crossing))
  | removed (tag : String) (id : ElementId) (answer : Except WorldError Unit)
  | crossed (tag : String) (crossing : Crossing) (shape element : ElementId)

structure World where
  store : Store
  zones : Table ElementId Zone := .empty
  events : List WorldEvent := []
  calls : List Call := []

namespace World

def publish (w : World) (e : WorldEvent) : World := { w with events := w.events ++ [e] }

def call (w : World) (c : Call) : World := { w with calls := w.calls ++ [c] }

def modifyZone (w : World) (shape : ElementId) (f : Zone → Zone) : World :=
  { w with zones := w.zones.modify shape f }

def zone (w : World) (shape : ElementId) : Except WorldError Zone :=
  match w.zones.find? shape with
  | some z => .ok z
  | none => .error (.notFound shape)

def watch (w : World) (id : ElementId) (watcher : Watcher) :
    Except WorldError SubscriptionId × World :=
  match w.store.residents.find? id with
  | none => (.error (.notFound id), w)
  | some r =>
    match r.destroyed.subscribe watcher with
    | (none, _) => (.error (.notFound id), w)
    | (some sub, registry) =>
      (.ok sub, { w with store := w.store.modifyWatchers id fun _ => registry })

def unwatch (w : World) (id : ElementId) (sub : SubscriptionId) : Bool × World :=
  match w.store.residents.find? id with
  | none => (false, w)
  | some r =>
    let (found, registry) := r.destroyed.unsubscribe sub
    (found, { w with store := w.store.modifyWatchers id fun _ => registry })

def announce (w : World) (shape element : ElementId) (crossing : Crossing) (z : Zone) : World :=
  let listeners := match crossing with
    | .entered => z.entered
    | .left => z.left
  let w := listeners.audience.foldl (fun w tag => w.call (.crossed tag crossing shape element)) w
  w.publish <| match crossing with
    | .entered => .shapeEntered shape element
    | .left => .shapeLeft shape element

def isInside (w : World) (shape element : ElementId) : Bool :=
  match w.store.find? element, w.store.find? shape with
  | some e, some s => s.shape?.any fun geometry => geometry.contains s.position e.position
  | _, _ => false

/-- Compares where an element is with where it was last found, and makes up for a difference. A
shape that is disabled sees nothing, and no shape sees itself. An element that is being destroyed
enters nothing. -/
def checkZone (w : World) (shape element : ElementId) (z : Zone) : Option Crossing × World :=
  if ¬ z.enabled ∨ element = shape then (none, w)
  else
    match w.isInside shape element, z.members.find? element with
    | true, none =>
      match w.watch element (.member shape) with
      | (.error _, _) => (none, w)
      | (.ok sub, w) =>
        let w := w.modifyZone shape fun z => { z with members := z.members.insert element sub }
        (some .entered, w.announce shape element .entered z)
    | false, some sub =>
      let w := w.modifyZone shape fun z => { z with members := z.members.erase element }
      let (_, w) := w.unwatch element sub
      (some .left, w.announce shape element .left z)
    | _, _ => (none, w)

def check (w : World) (shape element : ElementId) :
    Except WorldError (Option Crossing) × World :=
  match w.zones.find? shape with
  | none => (.error (.notFound shape), w)
  | some z =>
    let (crossing, w) := w.checkZone shape element z
    (.ok crossing, w)

def checkAll (w : World) : List (ElementId × ElementId) → Nat × World
  | [] => (0, w)
  | (shape, element) :: rest =>
    let (answer, w) := w.check shape element
    let (n, w) := checkAll w rest
    (match answer with
      | .ok (some _) => n + 1
      | _ => n, w)

def checkEverywhere (w : World) (element : ElementId) : Nat × World :=
  w.checkAll (w.zones.keys.map fun shape => (shape, element))

/-- Elements that a shape is checked against in a pass: those in the region around it, and its
members, but no shapes. -/
def candidates (w : World) (shape : ElementId) (z : Zone) : List ElementId :=
  match w.store.find? shape with
  | none => []
  | some s =>
    match s.shape? with
    | none => []
    | some geometry =>
      let near := w.store.grid.withinBox (geometry.bounds s.position)
      let all := (near ++ z.members.keys).foldl IdSet.add .empty
      all.toList.filter fun id => w.store.type? id ≠ some .shape

def runPass (w : World) : Nat × World :=
  pass w.zones.keys w
where
  pass : List ElementId → World → Nat × World
    | [], w => (0, w)
    | shape :: rest, w =>
      let (n, w) := match w.zones.find? shape with
        | some z =>
          if z.enabled then w.checkAll ((w.candidates shape z).map fun id => (shape, id)) else (0, w)
        | none => (0, w)
      let (m, w) := pass rest w
      (n + m, w)

/-- Forgets a shape and its members, who do not leave it; answers whether it was kept track of. -/
def forget (w : World) (shape : ElementId) : Bool × World :=
  match w.zones.find? shape with
  | none => (false, w)
  | some z =>
    let w := { w with zones := w.zones.erase shape }
    (true, z.members.entries.foldl (fun w (element, sub) => (w.unwatch element sub).2) w)

def register (w : World) (shape : ElementId) : Except WorldError Unit × World :=
  match w.store.type? shape with
  | none => (.error (.notFound shape), w)
  | some .shape =>
    if w.zones.contains shape then (.ok (), w)
    else
      match w.watch shape .shape with
      | (.error e, w) => (.error e, w)
      | (.ok _, w) => (.ok (), { w with zones := w.zones.insert shape {} })
  | some other => (.error (.wrongType shape .shape other), w)

def insert (w : World) (e : Element) : Except WorldError ElementId × World :=
  let (answer, store) := w.store.insert e
  (answer, { w with store })

def createShape (w : World) (geometry : Shape) (position : Vec3) :
    Except WorldError ElementId × World :=
  match w.insert { kind := .shape geometry, position } with
  | (.error e, w) => (.error e, w)
  | (.ok id, w) =>
    match w.register id with
    | (.error e, w) => (.error e, w)
    | (.ok (), w) => (.ok id, w)

def setEnabled (w : World) (shape : ElementId) (enabled : Bool) : Except WorldError World := do
  let _ ← w.zone shape
  return w.modifyZone shape fun z => { z with enabled }

def onCrossing (w : World) (shape : ElementId) (crossing : Crossing) (tag : String) :
    Except WorldError (SubscriptionId × World) := do
  let z ← w.zone shape
  let registry := match crossing with
    | .entered => z.entered
    | .left => z.left
  match registry.subscribe tag with
  | (none, _) => throw (.notFound shape)
  | (some sub, registry) =>
    return (sub, w.modifyZone shape fun z => match crossing with
      | .entered => { z with entered := registry }
      | .left => { z with left := registry })

/-- Takes back a subscription to crossings. Those who hear of elements entering are looked through
first, and then those who hear of elements leaving. -/
def unsubscribe (w : World) (shape : ElementId) (sub : SubscriptionId) : Bool × World :=
  match w.zones.find? shape with
  | none => (false, w)
  | some z =>
    match z.entered.unsubscribe sub with
    | (true, registry) => (true, w.modifyZone shape fun z => { z with entered := registry })
    | (false, _) =>
      let (found, registry) := z.left.unsubscribe sub
      (found, w.modifyZone shape fun z => { z with left := registry })

def memberDestroyed (w : World) (shape element : ElementId) : World :=
  match w.zones.find? shape with
  | none => w
  | some z =>
    if z.members.contains element then
      let w := w.modifyZone shape fun z => { z with members := z.members.erase element }
      w.announce shape element .left z
    else w

def noteCheck (w : World) (tag : String) (id : ElementId) : Option ElementId → World
  | none => w
  | some shape =>
    let (answer, w) := w.check shape id
    w.call (.checked tag shape answer)

def noteRemoval (w : World) (remove : ElementId → World → Except WorldError Element × World)
    (tag : String) : Option ElementId → World
  | none => w
  | some other =>
    let (answer, w) := remove other w
    w.call (.removed tag other (answer.map fun _ => ()))

def notify (remove : ElementId → World → Except WorldError Element × World) (id : ElementId) :
    List Watcher → World → World
  | [], w => w
  | .member shape :: rest, w => notify remove id rest (w.memberDestroyed shape id)
  | .shape :: rest, w => notify remove id rest (w.forget id).2
  | .note tag checked removed :: rest, w =>
    let w := w.call (.destroyed tag id (w.store.contains id))
    let w := w.noteCheck tag id checked
    notify remove id rest (w.noteRemoval remove tag removed)

/-- Removal with removals inside it, so deep. The watchers run first, while the element is still
there; from when they begin, the element counts as gone for any other removal. -/
def removeWithin : (depth : Nat) → ElementId → World → Except WorldError Element × World
  | 0, id, w => (.error (.notFound id), w)
  | depth + 1, id, w =>
    if id = w.store.root then (.error .rootIsFixed, w)
    else
      match w.store.residents.find? id with
      | none => (.error (.notFound id), w)
      | some r =>
        match r.destroyed.close with
        | (none, _) => (.error (.notFound id), w)
        | (some watchers, registry) =>
          let w := { w with store := w.store.modifyWatchers id fun _ => registry }
          let w := notify (removeWithin depth) id watchers w
          match w.store.evict id with
          | none => (.error (.notFound id), w)
          | some (e, store) => (.ok e, { w with store })

def remove (w : World) (id : ElementId) : Except WorldError Element × World :=
  removeWithin (w.store.size + 1) id w

def editPolygon (w : World) (shape : ElementId)
    (edit : List Vec2 → Except WorldError (Nat × List Vec2)) : Except WorldError (Nat × World) :=
  match w.store.find? shape with
  | none => .error (.notFound shape)
  | some e =>
    match e.shape? with
    | none => .error (.notAPolygon shape)
    | some geometry =>
      match geometry.vertices? with
      | none => .error (.notAPolygon shape)
      | some vertices => do
        let (index, vertices) ← edit vertices
        let store := w.store.modify shape fun e =>
          { e with kind := .shape (geometry.withVertices vertices) }
        return (index, { w with store }.publish (.polygonPointChanged shape index))

def vertices (w : World) (shape : ElementId) : Except WorldError (List Vec2) :=
  match w.store.find? shape with
  | none => .error (.notFound shape)
  | some e =>
    match e.shape?.bind (·.vertices?) with
    | some vertices => .ok vertices
    | none => .error (.notAPolygon shape)

def addVertex (w : World) (shape : ElementId) (p : Vec2) (index : Option Nat) :
    Except WorldError (Nat × World) :=
  w.editPolygon shape fun vertices =>
    let i := index.getD vertices.length
    if vertices.length < i then .error (.pointOutOfRange shape i)
    else .ok (i, vertices.take i ++ p :: vertices.drop i)

def setVertex (w : World) (shape : ElementId) (index : Nat) (p : Vec2) : Except WorldError World :=
  (·.2) <$> w.editPolygon shape fun vertices =>
    if index < vertices.length then .ok (index, vertices.set index p)
    else .error (.pointOutOfRange shape index)

def removeVertex (w : World) (shape : ElementId) (index : Nat) :
    Except WorldError (Vec2 × World) := do
  let removed := ((← w.vertices shape)[index]?).getD .zero
  let (_, w) ← w.editPolygon shape fun vertices =>
    if index < vertices.length then .ok (index, vertices.eraseIdx index)
    else .error (.pointOutOfRange shape index)
  return (removed, w)

end World
end SharedWorld
