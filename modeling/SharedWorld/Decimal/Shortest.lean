import SharedWorld.Single

/-! The fewest decimal digits that read back to a number. A finite number owns the interval of all
values that round to it; of the decimals with the fewest digits in that interval the nearest one is
taken, and of two that are equally near the one that a format prefers. -/
namespace SharedWorld.Decimal

structure Digits where
  digits : Nat
  exponent : Int
deriving DecidableEq

inductive Tie
  | toEven
  | upward
deriving DecidableEq

namespace Tie

def goesUp (below : Nat) : Tie → Bool
  | toEven => below % 2 = 1
  | upward => true

end Tie

structure Interval where
  low : Nat
  center : Nat
  high : Nat
  denominator : Nat
  closed : Bool

namespace Interval

/-- The values that round to `mantissa · 2 ^ exponent`, in quarters of the last place. The gap below
a power of two is half as wide. -/
def around (mantissa : Nat) (exponent : Int) : Interval :=
  let narrow := mantissa = Single.leadingBit ∧ -149 < exponent
  let scale := Nat.pow 2 exponent.toNat
  { low := (4 * mantissa - if narrow then 1 else 2) * scale
    center := 4 * mantissa * scale
    high := (4 * mantissa + 2) * scale
    denominator := 4 * Nat.pow 2 (-exponent).toNat
    closed := mantissa % 2 = 0 }

def contains (i : Interval) (numerator denominator : Nat) : Bool :=
  let n := numerator * i.denominator
  if i.closed then decide (i.low * denominator ≤ n) && decide (n ≤ i.high * denominator)
  else decide (i.low * denominator < n) && decide (n < i.high * denominator)

def distance (i : Interval) (numerator denominator : Nat) : Nat :=
  let n := numerator * i.denominator
  let c := i.center * denominator
  (n - c) + (c - n)

/-- The decimal nearest to the centre among the two beside it with the given exponent, if one of
them lies in the interval. -/
def atExponent (i : Interval) (tie : Tie) (exponent : Int) : Option Digits :=
  let up := Nat.pow 10 exponent.toNat
  let down := Nat.pow 10 (-exponent).toNat
  let below := i.center * down / (i.denominator * up)
  let fits := fun d => decide (0 < d) && i.contains (d * up) down
  match fits below, fits (below + 1) with
  | true, true =>
    let fromBelow := i.distance (below * up) down
    let fromAbove := i.distance ((below + 1) * up) down
    if fromAbove < fromBelow ∨ (fromAbove = fromBelow ∧ tie.goesUp below)
    then some ⟨below + 1, exponent⟩ else some ⟨below, exponent⟩
  | true, false => some ⟨below, exponent⟩
  | false, true => some ⟨below + 1, exponent⟩
  | false, false => none

def search (i : Interval) (tie : Tie) : (steps : Nat) → (exponent : Int) → Option Digits
  | 0, _ => none
  | n + 1, exponent =>
    match i.atExponent tie exponent with
    | some d => some d
    | none => search i tie n (exponent - 1)

end Interval

def shortest (tie : Tie) (mantissa : Nat) (exponent : Int) : Digits :=
  -- no decimal of a number is coarser than `10 ^ 39` or needs to be finer than `10 ^ -55`
  ((Interval.around mantissa exponent).search tie 95 39).getD ⟨0, 0⟩

end SharedWorld.Decimal
