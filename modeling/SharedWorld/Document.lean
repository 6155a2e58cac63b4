import SharedWorld.Decimal.Style

/-! Documents of named values, and their text: without blanks, and fields in the order in which the
document has them. -/
namespace SharedWorld

inductive Document
  | null
  | flag (b : Bool)
  | count (n : Nat)
  | decimal (x : Single)
  | text (s : String)
  | list (items : List Document)
  | fields (entries : List (String × Document))

namespace Document

/-- A decimal always has a fraction or an exponent; a tie goes to the even digit. -/
def numbers : Decimal.Style where
  tie := .toEven
  pointAbove := some (-6)
  pointUpTo := some 13
  keepsFraction := true
  marksPlus := true
  infinity := "null"
  notANumber := "null"

/-- Only a finite number has a text. -/
def decimalChars (x : Single) : List Char :=
  if x.isFinite then (numbers.render x).toList else "null".toList

def codeChars (c : Char) : List Char :=
  let digits := Nat.toDigits 16 c.toNat
  List.replicate (4 - digits.length) '0' ++ digits

def escape (c : Char) : List Char :=
  if c = '"' ∨ c = '\\' then ['\\', c]
  else if c = '\x08' then ['\\', 'b']
  else if c = '\t' then ['\\', 't']
  else if c = '\n' then ['\\', 'n']
  else if c = '\x0c' then ['\\', 'f']
  else if c = '\r' then ['\\', 'r']
  else if c < ' ' then ['\\', 'u'] ++ codeChars c
  else [c]

def textChars (s : String) : List Char := '"' :: s.toList.flatMap escape ++ ['"']

mutual

def chars : Document → List Char
  | null => "null".toList
  | flag b => (if b then "true" else "false").toList
  | count n => Nat.toDigits 10 n
  | decimal x => decimalChars x
  | text s => textChars s
  | list items => '[' :: itemChars items ++ [']']
  | fields entries => '\x7b' :: fieldChars entries ++ ['\x7d']

def itemChars : List Document → List Char
  | [] => []
  | [d] => d.chars
  | d :: rest => d.chars ++ ',' :: itemChars rest

def fieldChars : List (String × Document) → List Char
  | [] => []
  | [(name, d)] => textChars name ++ ':' :: d.chars
  | (name, d) :: rest => textChars name ++ ':' :: d.chars ++ ',' :: fieldChars rest

end

def render (d : Document) : String := String.ofList d.chars

end Document
end SharedWorld
