import SharedWorld.Single.Rounding

/-! Sine and cosine, correctly rounded. An angle is an exact fraction; it is reduced by right angles
with enough binary places for the largest number, the series is summed in whole numbers, and only
the sum is rounded. -/
namespace SharedWorld.Single.Angle

def places : Nat := 400

-- reduction needs these on top, as a quotient may have 129 bits
def guardPlaces : Nat := 160

def rightAngle : Nat :=
  0x1921fb54442d18469898cc51701b839a252049c1114cf98e804177d4c76273644a29410f31c6809bbdf2a33679a748636605614dbe4be286e9fc26adadaa3848bc90b6aecc4bc

/-- `term - term · x² / ((n+1)(n+2)) + …`, so many terms of it. -/
def alternating (square : Nat) : (terms n term : Nat) → Int
  | 0, _, _ => 0
  | k + 1, n, term =>
    term - alternating square k (n + 2) ((term * square) >>> places / ((n + 1) * (n + 2)))

def sinCosAcute (angle : Nat) : Int × Int :=
  let square := (angle * angle) >>> places
  -- sixty terms reach past the last place
  (alternating square 60 1 angle, alternating square 60 0 (1 <<< places))

def sinCosScaled (mantissa : Nat) (exponent : Int) : Int × Int :=
  let angle := mantissa <<< (exponent + (places + guardPlaces : Nat)).toNat
  let (s, c) := sinCosAcute ((angle % rightAngle) >>> guardPlaces)
  match (angle / rightAngle) % 4 with
  | 0 => (s, c)
  | 1 => (c, -s)
  | 2 => (-s, -c)
  | _ => (-c, s)

def round (flip : Bool) (n : Int) : Single :=
  ofScaled (flip != decide (n < 0)) n.natAbs (-(places : Int))

/-- Sine and cosine of an angle in radians; of an infinite one neither is a number. -/
def sinCos (x : Single) : Single × Single :=
  match x.value with
  | .finite negative mantissa exponent =>
    let (s, c) := sinCosScaled mantissa exponent
    (round negative s, round false c)
  | _ => (nan, nan)

def degree : Single := ⟨0x3c8efa35⟩

def ofDegrees (x : Single) : Single := x * degree

end SharedWorld.Single.Angle
