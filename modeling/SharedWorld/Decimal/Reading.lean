import SharedWorld.Single.Rounding

/-! Reading numbers from text: whole numbers under a limit, and decimal fractions. -/
namespace SharedWorld.Decimal

def digit? (c : Char) : Option Nat := if '0' ≤ c ∧ c ≤ '9' then some (c.toNat - '0'.toNat) else none

def ofDigits (cs : List Char) : Nat := cs.foldl (fun n c => 10 * n + (digit? c).getD 0) 0

def isDigit (c : Char) : Bool := (digit? c).isSome

def natural? (limit : Nat) (cs : List Char) : Option Nat :=
  let digits := match cs with
    | '+' :: rest => rest
    | _ => cs
  if digits.isEmpty ∨ ¬ digits.all isDigit ∨ limit ≤ ofDigits digits then none
  else some (ofDigits digits)

def sign : List Char → Bool × List Char
  | '-' :: rest => (true, rest)
  | '+' :: rest => (false, rest)
  | cs => (false, cs)

def exponent? : List Char → Option Int
  | [] => some 0
  | e :: rest =>
    let (negative, digits) := sign rest
    if (e = 'e' ∨ e = 'E') ∧ ¬ digits.isEmpty ∧ digits.all isDigit then
      some (if negative then -(ofDigits digits : Int) else ofDigits digits)
    else none

/-- Digits with at most one point among them and at least one digit, then perhaps an exponent. -/
def fraction? (negative : Bool) (cs : List Char) : Option Single :=
  let whole := cs.takeWhile isDigit
  let (part, rest) := match cs.dropWhile isDigit with
    | '.' :: rest => (rest.takeWhile isDigit, rest.dropWhile isDigit)
    | rest => ([], rest)
  if whole.isEmpty ∧ part.isEmpty then none
  else (exponent? rest).map fun e =>
    Single.ofDecimal negative (ofDigits (whole ++ part)) (e - part.length)

/-- A number, in any case of its letters the words for infinity, or the word for no number. -/
def single? (cs : List Char) : Option Single :=
  let (negative, rest) := sign cs
  let word := rest.map Char.toLower
  if word = "inf".toList ∨ word = "infinity".toList then
    some (if negative then .negInfinity else .infinity)
  else if word = "nan".toList then some .nan
  else fraction? negative rest

end SharedWorld.Decimal
