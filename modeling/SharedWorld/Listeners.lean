/-! Registries of listeners. A delivery goes to those registered when it begins, in order of
registration; a registry closes once, and from then on takes nobody. -/
namespace SharedWorld

structure SubscriptionId where
  number : Nat
deriving DecidableEq, Inhabited

structure Listeners (κ : Type) where
  next : Nat := 0
  closed : Bool := false
  entries : List (SubscriptionId × κ) := []

namespace Listeners
variable {κ : Type}

def subscribe (l : Listeners κ) (listener : κ) : Option SubscriptionId × Listeners κ :=
  if l.closed then (none, l)
  else (some ⟨l.next⟩,
    { l with next := l.next + 1, entries := l.entries ++ [(⟨l.next⟩, listener)] })

def unsubscribe (l : Listeners κ) (id : SubscriptionId) : Bool × Listeners κ :=
  (l.entries.any (fun e => e.1 = id), { l with entries := l.entries.filter (fun e => e.1 ≠ id) })

def audience (l : Listeners κ) : List κ := l.entries.map (·.2)

/-- Closes the registry and hands over its last audience; none if it was closed before. -/
def close (l : Listeners κ) : Option (List κ) × Listeners κ :=
  if l.closed then (none, l) else (some l.audience, { l with closed := true, entries := [] })

end Listeners
end SharedWorld
