import SharedWorld.Id

/-! What the world tells those outside it. -/
namespace SharedWorld

inductive QuitReason
  | quit | timeout
deriving DecidableEq

namespace QuitReason

def all : List QuitReason := [quit, timeout]

def label : QuitReason → String
  | quit => "Quit"
  | timeout => "Timeout"

end QuitReason

inductive WorldEvent
  | clientConnected (endpoint : Endpoint) (player : ElementId)
  | clientDisconnected (endpoint : Endpoint) (player : ElementId) (reason : QuitReason)
  -- the damager is left out when it is no longer there
  | playerDamaged (player : ElementId) (damager : Option ElementId) (weapon bodyPart : UInt8)
  | playerCommand (player : ElementId) (command : String) (arguments : List String)
  | shapeEntered (shape element : ElementId)
  | shapeLeft (shape element : ElementId)
  | polygonPointChanged (shape : ElementId) (index : Nat)
deriving DecidableEq

end SharedWorld
