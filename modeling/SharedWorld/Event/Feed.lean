import SharedWorld.Event

/-! A feed of events with many receivers. It keeps the last so many; a receiver that fell behind
what is kept learns once how many it lost. -/
namespace SharedWorld

structure Feed (α : Type) where
  capacity : Nat
  published : Nat := 0
  -- the last of them, oldest first
  kept : List α := []
  -- for every receiver, how many events it has behind it
  positions : List Nat := []

namespace Feed
variable {α : Type}

inductive Received (α : Type)
  | event (e : α)
  | empty
  | lagged (lost : Nat)

def defaultCapacity : Nat := 1024

def new (capacity : Nat) : Feed α := { capacity := max capacity 1 }

def publish (f : Feed α) (e : α) : Feed α :=
  let kept := f.kept ++ [e]
  { f with published := f.published + 1, kept := kept.drop (kept.length - f.capacity) }

/-- A receiver of everything published from now on, and its number. -/
def subscribe (f : Feed α) : Nat × Feed α :=
  (f.positions.length, { f with positions := f.positions ++ [f.published] })

def receive (f : Feed α) (receiver : Nat) : Option (Received α × Feed α) :=
  f.positions[receiver]?.map fun position =>
    let oldest := f.published - f.kept.length
    if position < oldest then
      (.lagged (oldest - position), { f with positions := f.positions.set receiver oldest })
    else
      match f.kept[position - oldest]? with
      | some e => (.event e, { f with positions := f.positions.set receiver (position + 1) })
      | none => (.empty, f)

end Feed
end SharedWorld
