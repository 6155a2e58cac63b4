import SharedWorld.World.Error

/-! Where identifiers for new elements come from: a counter that never goes back and never reaches
the invalid identifier, or a list made out in advance. -/
namespace SharedWorld

inductive IdSource
  | counter (next : UInt32)
  | listed (remaining : List ElementId)
deriving DecidableEq

namespace IdSource

def next : IdSource → Except WorldError ElementId × IdSource
  | counter n =>
    if n < 0xffffffff then (.ok ⟨n⟩, counter (n + 1)) else (.error .idSpaceExhausted, counter n)
  | listed (id :: rest) => (.ok id, listed rest)
  | listed [] => (.error .idSpaceExhausted, listed [])

/-- Takes note of an identifier that was chosen elsewhere; a list takes none. -/
def reserve (id : ElementId) : IdSource → IdSource
  | counter n => if id.isValid ∧ n < id.number + 1 then counter (id.number + 1) else counter n
  | listed ids => listed ids

end IdSource
end SharedWorld
