import SharedWorld.Decimal.Shortest

/-! How a number is laid out once its digits are chosen. -/
namespace SharedWorld.Decimal

/-- The choices of a format: which of two equally near decimals it takes, which magnitudes are
written without an exponent, whether an integral number keeps a fraction, and the words for what is
no finite number. -/
structure Style where
  tie : Tie
  -- where the decimal point may stand, counted from the first digit: from just above this …
  pointAbove : Option Int
  -- … to here
  pointUpTo : Option Int
  keepsFraction : Bool
  -- whether an exponent that is not negative has a plus sign
  marksPlus : Bool
  infinity : String
  notANumber : String

namespace Style

def digitChars (n : Nat) : List Char := Nat.toDigits 10 n

def zeros (n : Nat) : List Char := List.replicate n '0'

def exponentChars (style : Style) (n : Int) : List Char :=
  let sign := if n < 0 then ['-'] else if style.marksPlus then ['+'] else []
  'e' :: sign ++ digitChars n.natAbs

def positional (style : Style) (digits : List Char) (point : Int) : List Char :=
  if point ≤ 0 then ['0', '.'] ++ zeros (-point).toNat ++ digits
  else if point.toNat < digits.length then
    digits.take point.toNat ++ ['.'] ++ digits.drop point.toNat
  else
    digits ++ zeros (point.toNat - digits.length) ++ if style.keepsFraction then ['.', '0'] else []

def scientific (style : Style) (digits : List Char) (point : Int) : List Char :=
  match digits with
  | [d] => d :: style.exponentChars (point - 1)
  | d :: rest => d :: '.' :: rest ++ style.exponentChars (point - 1)
  | [] => []

def finite (style : Style) (mantissa : Nat) (exponent : Int) : List Char :=
  if mantissa = 0 then '0' :: if style.keepsFraction then ['.', '0'] else []
  else
    let d := shortest style.tie mantissa exponent
    let digits := digitChars d.digits
    let point : Int := digits.length + d.exponent
    if style.pointAbove.all (fun low => low < point) ∧ style.pointUpTo.all (fun high => point ≤ high)
    then style.positional digits point
    else style.scientific digits point

def render (style : Style) (x : Single) : String :=
  match x.value with
  | .notANumber => style.notANumber
  | .infinite negative => if negative then "-" ++ style.infinity else style.infinity
  | .finite negative mantissa exponent =>
    let text := style.finite mantissa exponent
    String.ofList (if negative then '-' :: text else text)

end Style
end SharedWorld.Decimal
