import SharedWorld.Id
import SharedWorld.Shape

/-! The elements of the world and what each kind of element holds. -/
namespace SharedWorld

inductive ElementType
  | root | player | vehicle | shape | water | pickup | object | dummy
deriving DecidableEq, Inhabited

namespace ElementType

/-- Every type, in the order in which reports list them. -/
def all : List ElementType := [root, player, vehicle, shape, water, pickup, object, dummy]

def label : ElementType → String
  | root => "Root"
  | player => "Player"
  | vehicle => "Vehicle"
  | shape => "ColShape"
  | water => "Water"
  | pickup => "Pickup"
  | object => "Object"
  | dummy => "Dummy"

def key : ElementType → String
  | root => "root"
  | player => "player"
  | vehicle => "vehicle"
  | shape => "col_shape"
  | water => "water"
  | pickup => "pickup"
  | object => "object"
  | dummy => "dummy"

instance : Ranked ElementType where
  rank
    | root => 0 | player => 1 | vehicle => 2 | shape => 3
    | water => 4 | pickup => 5 | object => 6 | dummy => 7
  rank_injective := by intro a b; cases a <;> cases b <;> decide

end ElementType

structure PlayerFlags where
  isInWater : Bool
  isOnGround : Bool
  hasJetpack : Bool
  isDucked : Bool
  wearsGoggles : Bool
  hasContact : Bool
  isChoking : Bool
  akimboTargetUp : Bool
  isOnFire : Bool
  isSyncingVelocity : Bool
  isStealthAiming : Bool
deriving DecidableEq, Inhabited

structure Weapon where
  slot : UInt8
  kind : UInt8
  ammo : UInt16
  ammoInClip : UInt16
deriving DecidableEq, Inhabited

/-- What a player's camera shows: a fixed view, or an element that may be gone by now. -/
inductive Camera
  | fixed (position lookAt : Vec3)
  | following (target : Option ElementId)
deriving DecidableEq

structure Player where
  endpoint : Endpoint
  health : Single := ⟨0x42c80000⟩
  armor : Single := .zero
  weapon : Weapon := default
  aimOrigin : Vec3 := .zero
  aimDirection : Vec3 := .zero
  cameraPosition : Vec3 := .zero
  cameraDirection : Vec3 := .zero
  cameraRotation : Single := .zero
  camera : Camera := .following none
  flags : PlayerFlags := default
  contact : Option ElementId := none
  vehicle : Option ElementId := none
deriving DecidableEq

structure Damage where
  doors : Vector UInt8 6
  wheels : Vector UInt8 4
  panels : Vector UInt8 7
  lights : Vector UInt8 4
deriving DecidableEq

def Damage.none : Damage := ⟨.replicate 6 0, .replicate 4 0, .replicate 7 0, .replicate 4 0⟩

structure Vehicle where
  model : UInt16
  health : Single := ⟨0x447a0000⟩
  damage : Damage := .none
  turret : Vec2 := .zero
  adjustable : UInt16 := 0
  siren : Bool := false
  doorRatios : Vector Single 6 := .replicate 6 .zero
  driver : Option ElementId := none
  towing : Option ElementId := none
  towedBy : Option ElementId := none
deriving DecidableEq

structure Water where
  vertices : List Vec3
  isShallow : Bool
deriving DecidableEq

inductive ElementKind
  | root
  | player (state : Player)
  | vehicle (state : Vehicle)
  | shape (shape : Shape)
  | water (state : Water)
  | pickup (model : UInt16)
  | object (model : UInt16)
  | dummy
deriving DecidableEq

def ElementKind.type : ElementKind → ElementType
  | root => .root
  | player _ => .player
  | vehicle _ => .vehicle
  | shape _ => .shape
  | water _ => .water
  | pickup _ => .pickup
  | object _ => .object
  | dummy => .dummy

structure Attachment where
  target : ElementId
  position : Vec3
  rotation : Vec3
deriving DecidableEq

structure Element where
  kind : ElementKind
  id : ElementId := .invalid
  parent : Option ElementId := none
  children : IdSet := .empty
  attachment : Option Attachment := none
  attached : IdSet := .empty
  position : Vec3 := .zero
  rotation : Vec3 := .zero
  velocity : Vec3 := .zero
  turnVelocity : Vec3 := .zero
deriving DecidableEq

namespace Element

def type (e : Element) : ElementType := e.kind.type

def player? (e : Element) : Option Player :=
  match e.kind with
  | .player p => some p
  | _ => none

def vehicle? (e : Element) : Option Vehicle :=
  match e.kind with
  | .vehicle v => some v
  | _ => none

def shape? (e : Element) : Option Shape :=
  match e.kind with
  | .shape s => some s
  | _ => none

def updatePlayer (f : Player → Player) (e : Element) : Element :=
  match e.kind with
  | .player p => { e with kind := .player (f p) }
  | _ => e

def updateVehicle (f : Vehicle → Vehicle) (e : Element) : Element :=
  match e.kind with
  | .vehicle v => { e with kind := .vehicle (f v) }
  | _ => e

def target? (e : Element) : Option ElementId := e.attachment.map (·.target)

def addChild (id : ElementId) (e : Element) : Element := { e with children := e.children.add id }
def dropChild (id : ElementId) (e : Element) : Element :=
  { e with children := e.children.erase id }
def addAttached (id : ElementId) (e : Element) : Element := { e with attached := e.attached.add id }
def dropAttached (id : ElementId) (e : Element) : Element :=
  { e with attached := e.attached.erase id }

/-- The element with its relations to others forgotten, as it enters the world. -/
def released (e : Element) : Element :=
  let kind : ElementKind := match e.kind with
    | .vehicle v => .vehicle { v with driver := none, towing := none, towedBy := none }
    | .player p => .player { p with vehicle := none }
    | other => other
  { e with kind, parent := none, children := .empty, attachment := none, attached := .empty }

end Element
end SharedWorld
