import SharedWorld.Table

/-! Names of things: elements, network endpoints and subscriptions. -/
namespace SharedWorld

structure ElementId where
  number : UInt32
deriving DecidableEq, Inhabited

namespace ElementId

/-- The number that stands for no element. -/
def invalid : ElementId := ⟨0xffffffff⟩

def isValid (id : ElementId) : Bool := decide (id ≠ invalid)

instance : Ranked ElementId where
  rank id := id.number.toNat
  rank_injective := by
    intro a b h
    cases a; cases b
    simpa [UInt32.toNat_inj] using h

instance : ToString ElementId := ⟨fun id => toString id.number⟩

end ElementId

/-- Identifiers in ascending order, each once. -/
abbrev IdSet := Table ElementId Unit

namespace IdSet

def toList (s : IdSet) : List ElementId := s.keys
def add (s : IdSet) (id : ElementId) : IdSet := s.insert id ()

end IdSet

structure Endpoint where
  number : UInt64
deriving DecidableEq, Inhabited

instance : Ranked Endpoint where
  rank e := e.number.toNat
  rank_injective := by
    intro a b h
    cases a; cases b
    simpa [UInt64.toNat_inj] using h

end SharedWorld
