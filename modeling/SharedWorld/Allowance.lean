/-! How many packets a client may still send before time passes. -/
namespace SharedWorld

structure Allowance where
  left : Nat
deriving DecidableEq, Inhabited

namespace Allowance

/-- Packets a second that are let through unless configured otherwise. -/
def defaultRate : Nat := 120

def ofRate (rate : Nat) : Allowance := ⟨max rate 1⟩

def spend (a : Allowance) : Bool × Allowance :=
  match a.left with
  | 0 => (false, a)
  | n + 1 => (true, ⟨n⟩)

end Allowance
end SharedWorld
