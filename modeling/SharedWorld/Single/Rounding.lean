import SharedWorld.Single

/-! Rounding an exact value to single precision: to the nearest number, a tie to the even one. -/
namespace SharedWorld.Single

def signed (negative : Bool) (magnitude : Nat) : Single :=
  ⟨UInt32.ofNat (if negative then magnitude + 0x80000000 else magnitude)⟩

def shiftRound (mantissa shift : Nat) : Nat :=
  let kept := mantissa >>> shift
  let lost := mantissa - (kept <<< shift)
  let unit := Nat.pow 2 shift
  -- a tie goes to the even one
  if unit < 2 * lost ∨ (unit = 2 * lost ∧ kept % 2 = 1) then kept + 1 else kept

/-- The number nearest to `± mantissa · 2 ^ exponent`. -/
def ofScaled (negative : Bool) (mantissa : Nat) (exponent : Int) : Single :=
  if mantissa = 0 then signed negative 0
  else
    let unit := Max.max ((mantissa.log2 : Int) + exponent - 23) (-149)
    let digits :=
      if unit ≤ exponent then mantissa <<< (exponent - unit).toNat
      else shiftRound mantissa (unit - exponent).toNat
    let magnitude :=
      if digits < leadingBit then digits
      else (unit + 150).toNat * leadingBit + (digits - leadingBit)
    signed negative (Min.min magnitude (255 * leadingBit))

def ofNat (n : Nat) : Single := ofScaled false n 0

def ofRatio (negative : Bool) (numerator denominator : Nat) : Single :=
  let shift := denominator.log2 + 220
  let scaled := numerator <<< shift
  let quotient := scaled / denominator
  let sticky := if scaled % denominator = 0 then 0 else 1
  ofScaled negative (2 * quotient + sticky) (-(shift : Int) - 1)

def ofDecimal (negative : Bool) (digits : Nat) (exponent : Int) : Single :=
  if digits = 0 then signed negative 0
  else if 40 < exponent then signed negative (255 * leadingBit)
  else if 0 ≤ exponent then ofScaled negative (digits * Nat.pow 10 exponent.toNat) 0
  else if (digits.log2 : Int) + 3 * exponent < -200 then signed negative 0
  else ofRatio negative digits (Nat.pow 10 (-exponent).toNat)

end SharedWorld.Single
