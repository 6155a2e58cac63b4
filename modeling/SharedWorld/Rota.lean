/-! Whose turn it is. Workers that were woken stand in one line. A worker that found something to do
steps aside after its turn, and comes back into a second line. Turns are given out in passes, and
those who stepped aside in a pass come back after it, the last of them first. -/
namespace SharedWorld

structure Rota (ω : Type) where
  woken : List ω := []
  returned : List ω := []
  turns : Nat := 0

namespace Rota
variable {ω : Type}

def passLength : Nat := 61

def wokenEvery : Nat := 31

/-- Passes without work after which the workers are left alone. -/
def patience : Nat := 30

def isEmpty (r : Rota ω) : Bool := r.woken.isEmpty && r.returned.isEmpty

def wake [DecidableEq ω] (r : Rota ω) (w : ω) : Rota ω :=
  if w ∈ r.woken then r else { r with woken := r.woken ++ [w] }

/-- Who is next. Those who came back go before those who were woken, but for one turn in
`wokenEvery`. -/
def next? (r : Rota ω) : Option (ω × Rota ω) :=
  let turns := r.turns + 1
  match r.returned, r.woken with
  | [], [] => none
  | [], w :: woken => some (w, { r with woken, turns })
  | b :: returned, [] => some (b, { r with returned, turns })
  | b :: returned, w :: woken =>
    if turns % wokenEvery = 0 then some (w, { r with woken, turns })
    else some (b, { r with returned, turns })

def draw : Nat → Rota ω → List ω × Rota ω
  | 0, r => ([], r)
  | n + 1, r =>
    match r.next? with
    | none => ([], { r with turns := r.turns + 1 })
    | some (w, r) =>
      let (ws, r) := draw n r
      (w :: ws, r)

def comeBack (r : Rota ω) (aside : List ω) : Rota ω :=
  { r with returned := r.returned ++ aside.reverse }

end Rota
end SharedWorld
