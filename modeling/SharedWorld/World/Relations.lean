import SharedWorld.World.Store

/-! Relations with two sides: tow pairs, seats and attachments. An operation changes both sides
together, or, where it is refused, neither. -/
namespace SharedWorld.Store

def towing? (s : Store) (id : ElementId) : Option ElementId :=
  (s.find? id).bind fun e => e.vehicle?.bind (·.towing)

def towedBy? (s : Store) (id : ElementId) : Option ElementId :=
  (s.find? id).bind fun e => e.vehicle?.bind (·.towedBy)

def retow (s : Store) (trailer : ElementId) (old tower displaced : Option ElementId) : Store :=
  let s := s.modifyAll old.toList (·.updateVehicle fun v =>
    if v.towing = some trailer then { v with towing := none } else v)
  let s := s.modifyAll displaced.toList (·.updateVehicle ({ · with towedBy := none }))
  let s := s.modifyAll tower.toList (·.updateVehicle ({ · with towing := some trailer }))
  s.modify trailer (·.updateVehicle ({ · with towedBy := tower }))

/-- Hitches a trailer behind a tower, which lets go of any other trailer, or unhitches it. Answers
whether anything changed. -/
def attachToTower (s : Store) (trailer : ElementId) (tower : Option ElementId) :
    Except WorldError (Bool × Store) := do
  let old := (← s.vehicle trailer).towedBy
  if old = tower then return (false, s)
  match tower with
  | none => return (true, s.retow trailer old none none)
  | some w =>
    let displaced := (← s.vehicle w).towing
    if reaches s.towedBy? trailer (s.size + 1) w then throw (.cyclicTow trailer w)
    return (true, s.retow trailer old (some w) displaced)

def detachTowed (s : Store) (tower : ElementId) : Except WorldError (Option ElementId × Store) := do
  match (← s.vehicle tower).towing with
  | none => return (none, s)
  | some trailer =>
    let (_, s) ← s.attachToTower trailer none
    return (some trailer, s)

def reseat (s : Store) (vehicle : ElementId) (old previous driver : Option ElementId) : Store :=
  let s := s.modifyAll (old.filter (some · ≠ driver)).toList (·.updatePlayer fun p =>
    if p.vehicle = some vehicle then { p with vehicle := none } else p)
  let s := s.modifyAll (previous.filter (· ≠ vehicle)).toList (·.updateVehicle fun v =>
    if v.driver = driver then { v with driver := none } else v)
  let s := s.modify vehicle (·.updateVehicle ({ · with driver }))
  s.modifyAll driver.toList (·.updatePlayer ({ · with vehicle := some vehicle }))

/-- Gives the driver's seat to a player, who leaves the seat of any other vehicle, or to nobody. -/
def setDriver (s : Store) (vehicle : ElementId) (driver : Option ElementId) :
    Except WorldError Store := do
  let old := (← s.vehicle vehicle).driver
  let previous ← match driver with
    | some player => pure (← s.player player).vehicle
    | none => pure none
  if old = driver ∧ (driver = none ∨ previous = some vehicle) then return s
  return s.reseat vehicle old previous driver

def leaveVehicle (s : Store) (player : ElementId) :
    Except WorldError (Option ElementId × Store) := do
  match (← s.player player).vehicle with
  | none => return (none, s)
  | some vehicle =>
    let driver := (← s.vehicle vehicle).driver
    let s ← if driver = some player then s.setDriver vehicle none
      else s.update player (·.updatePlayer ({ · with vehicle := none }))
    return (some vehicle, s)

def seatPassenger (s : Store) (vehicle player : ElementId) : Except WorldError Store := do
  let driver := (← s.vehicle vehicle).driver
  let current := (← s.player player).vehicle
  if current = some vehicle ∧ driver ≠ some player then return s
  let s ← if current = none then pure s else (·.2) <$> s.leaveVehicle player
  s.update player (·.updatePlayer ({ · with vehicle := some vehicle }))

def placed (target : Element) (a : Attachment) (e : Element) : Element :=
  { e with
    position := target.position + (Axes.ofRotation target.rotation).apply a.position
    rotation := target.rotation + a.rotation }

def follow (s : Store) (targetId : ElementId) (target : Element) (id : ElementId) :
    Option Store := do
  let a ← (← s.find? id).attachment
  if a.target = targetId then (s.update id (placed target a)).toOption else none

def followAll (s : Store) (targetId : ElementId) (target : Element) :
    List ElementId → List ElementId × Store
  | [] => ([], s)
  | id :: rest =>
    match s.follow targetId target id with
    | none => followAll s targetId target rest
    | some s =>
      let (moved, s) := followAll s targetId target rest
      (id :: moved, s)

def propagateFrom : (steps : Nat) → (visited : IdSet) → (waiting : List ElementId) →
    (moved : Nat) → Store → Nat × Store
  | 0, _, _, moved, s => (moved, s)
  | _, _, [], moved, s => (moved, s)
  | n + 1, visited, current :: waiting, moved, s =>
    if visited.contains current then propagateFrom n visited waiting moved s
    else
      let visited := visited.add current
      match s.find? current with
      | none => propagateFrom n visited waiting moved s
      | some e =>
        let (ids, s) := s.followAll current e e.attached.toList
        -- the last found goes first
        propagateFrom n visited (ids.reverse ++ waiting) (moved + ids.length) s

/-- Moves everything that is attached to an element, directly or through others, to where it
belongs. Every element waits at most once, beside the first. -/
def propagate (s : Store) (target : ElementId) : Nat × Store :=
  propagateFrom (s.size + 1) .empty [target] 0 s

def attach (s : Store) (element target : ElementId) (position rotation : Vec3) :
    Except WorldError Store :=
  match s.find? element with
  | none => .error (.notFound element)
  | some e =>
    if ¬ s.contains target then .error (.notFound target)
    else if reaches s.target? element (s.size + 1) target then
      .error (.cyclicAttachment element target)
    else
      let s := s.modifyAll (e.target?.filter (· ≠ target)).toList (·.dropAttached element)
      let s := s.modify target (·.addAttached element)
      let s := s.modify element ({ · with attachment := some ⟨target, position, rotation⟩ })
      .ok (s.propagate target).2

def detach (s : Store) (element : ElementId) : Except WorldError (Bool × Store) :=
  match s.find? element with
  | none => .error (.notFound element)
  | some e =>
    match e.target? with
    | none => .ok (false, s)
    | some target =>
      let s := s.modify target (·.dropAttached element)
      .ok (true, s.modify element ({ · with attachment := none }))

end SharedWorld.Store
