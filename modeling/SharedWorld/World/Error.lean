import SharedWorld.Element

/-! Why an operation on the world is refused. -/
namespace SharedWorld

inductive WorldError
  | notFound (id : ElementId)
  | duplicateId (id : ElementId)
  | duplicateRoot
  | rootIsFixed
  | idSpaceExhausted
  | wrongType (id : ElementId) (expected actual : ElementType)
  | cyclicParent (child parent : ElementId)
  | cyclicAttachment (element target : ElementId)
  | cyclicTow (trailer tower : ElementId)
  | notAPolygon (shape : ElementId)
  | pointOutOfRange (shape : ElementId) (index : Nat)
deriving DecidableEq

def WorldError.name : WorldError → String
  | notFound _ => "NotFound"
  | duplicateId _ => "DuplicateId"
  | duplicateRoot => "DuplicateRoot"
  | rootIsFixed => "RootIsFixed"
  | idSpaceExhausted => "IdSpaceExhausted"
  | wrongType .. => "WrongType"
  | cyclicParent .. => "CyclicParent"
  | cyclicAttachment .. => "CyclicAttachment"
  | cyclicTow .. => "CyclicTow"
  | notAPolygon _ => "NotAPolygon"
  | pointOutOfRange .. => "PointOutOfRange"

def WorldError.message : WorldError → String
  | notFound id => s!"Element {id} not found"
  | duplicateId id => s!"Element id {id} is already in use"
  | duplicateRoot => "A world can only have one root element"
  | rootIsFixed => "The root element cannot be removed or re-parented"
  | idSpaceExhausted => "Element id space exhausted"
  | wrongType id expected actual =>
    let (is, wanted) := (actual.label, expected.label)
    s!"Element {id} is a {is}, expected a {wanted}"
  | cyclicParent child parent => s!"Parenting {child} to {parent} would create a cycle"
  | cyclicAttachment element target => s!"Attaching {element} to {target} would create a cycle"
  | cyclicTow trailer tower => s!"Towing {trailer} behind {tower} would create a cycle"
  | notAPolygon shape => s!"Shape {shape} is not a polygon"
  | pointOutOfRange shape index => s!"Shape {shape} has no polygon point {index}"

end SharedWorld
