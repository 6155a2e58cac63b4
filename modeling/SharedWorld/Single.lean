/-! Single precision numbers. A number is its 32 bits, so that a value which only passes through
keeps them all; arithmetic rounds each operation once, to nearest, ties to even. -/
namespace SharedWorld

structure Single where
  bits : UInt32
deriving DecidableEq, Inhabited

namespace Single

def toFloat32 (x : Single) : Float32 := Float32.ofBits x.bits
def ofFloat32 (x : Float32) : Single := ⟨x.toBits⟩

def zero : Single := ⟨0⟩
def one : Single := ⟨0x3f800000⟩
def infinity : Single := ⟨0x7f800000⟩
def negInfinity : Single := ⟨0xff800000⟩
def nan : Single := ⟨0x7fc00000⟩

instance : Add Single := ⟨fun x y => ofFloat32 (x.toFloat32 + y.toFloat32)⟩
instance : Sub Single := ⟨fun x y => ofFloat32 (x.toFloat32 - y.toFloat32)⟩
instance : Mul Single := ⟨fun x y => ofFloat32 (x.toFloat32 * y.toFloat32)⟩
instance : Div Single := ⟨fun x y => ofFloat32 (x.toFloat32 / y.toFloat32)⟩
instance : Neg Single := ⟨fun x => ⟨x.bits ^^^ 0x80000000⟩⟩

def sqrt (x : Single) : Single := ofFloat32 x.toFloat32.sqrt
def abs (x : Single) : Single := ⟨x.bits &&& 0x7fffffff⟩

/-- The order of numbers: the zeros are level, and nothing is in order with what is not a number. -/
instance : LE Single := ⟨fun x y => x.toFloat32 ≤ y.toFloat32⟩
instance : LT Single := ⟨fun x y => x.toFloat32 < y.toFloat32⟩
instance (x y : Single) : Decidable (x ≤ y) :=
  inferInstanceAs (Decidable (x.toFloat32 ≤ y.toFloat32))
instance (x y : Single) : Decidable (x < y) :=
  inferInstanceAs (Decidable (x.toFloat32 < y.toFloat32))

/-- Equality of numbers: the zeros are equal, and what is not a number equals nothing. -/
def same (x y : Single) : Bool := x.toFloat32 == y.toFloat32

def isNaN (x : Single) : Bool := decide (0x7f800000 < x.bits &&& 0x7fffffff)
def isFinite (x : Single) : Bool := decide (x.bits &&& 0x7fffffff < 0x7f800000)

/-- The smaller of two numbers, of two level ones the second; one that is not a number gives way to
the other. -/
def min (x y : Single) : Single :=
  if x.isNaN then y else if y.isNaN then x else if x < y then x else y

def max (x y : Single) : Single :=
  if x.isNaN then y else if y.isNaN then x else if y < x then x else y

/-- What the bits stand for; a finite number is `± mantissa · 2 ^ exponent`. -/
inductive Value
  | notANumber
  | infinite (negative : Bool)
  | finite (negative : Bool) (mantissa : Nat) (exponent : Int)
deriving DecidableEq

def negative (x : Single) : Bool := decide (0x80000000 ≤ x.bits)

def leadingBit : Nat := 0x800000

def value (x : Single) : Value :=
  let field : Nat := (x.bits.toNat / leadingBit) % 256
  let fraction : Nat := x.bits.toNat % leadingBit
  if field = 255 then
    if fraction = 0 then .infinite x.negative else .notANumber
  else if field = 0 then .finite x.negative fraction (-149)
  else .finite x.negative (fraction + leadingBit) ((field : Int) - 150)

def floorScaled (negative : Bool) (mantissa : Nat) (exponent : Int) : Int :=
  let n : Int := if negative then -(mantissa : Int) else mantissa
  if 0 ≤ exponent then n * (Nat.pow 2 exponent.toNat : Int)
  else n / (Nat.pow 2 (-exponent).toNat : Int)

def clamp (low high n : Int) : Int := if n < low then low else if high < n then high else n

def floorWithin (low high : Int) (x : Single) : Int :=
  match x.value with
  | .notANumber => 0
  | .infinite true => low
  | .infinite false => high
  | .finite s m e => clamp low high (floorScaled s m e)

/-- The greatest integer not above the number, held within 32 bits; zero for what is no number. -/
def floor32 (x : Single) : Int := x.floorWithin (-2147483648) 2147483647

/-- The least natural number not below the number, held under `limit`. -/
def ceilNat (limit : Nat) (x : Single) : Nat := (-((-x).floorWithin (-(limit : Int)) 0)).toNat

end Single
end SharedWorld
