/-! What vehicles of each model are equipped with. -/
namespace SharedWorld.VehicleModel

def isValid (model : UInt16) : Bool := decide (400 ≤ model) && decide (model ≤ 611)

def hasTurret (model : UInt16) : Bool :=
  -- fire trucks and tanks
  [407, 432, 601].contains model

def hasAdjustable (model : UInt16) : Bool :=
  -- cranes, dozers, fork lifts and the like
  [406, 443, 486, 520, 524, 525, 530, 531, 592].contains model

def doorless : List UInt16 :=
  [424, 441, 457, 465, 485, 486, 501, 530, 531, 564, 568, 571, 572, 594]

def hasDoors (model : UInt16) : Bool := isValid model && !doorless.contains model

end SharedWorld.VehicleModel
