import SharedWorld.Wire.Text

/-! Text in an address, where a percent sign and two hexadecimal digits stand for a byte. -/
namespace SharedWorld.Text.Percent

def digit? (b : UInt8) : Option UInt8 :=
  if 48 ≤ b ∧ b ≤ 57 then some (b - 48)
  else if 65 ≤ b ∧ b ≤ 70 then some (b - 55)
  else if 97 ≤ b ∧ b ≤ 102 then some (b - 87)
  else none

/-- A percent sign without two digits after it stands for itself. -/
def unescape : List UInt8 → List UInt8
  | 37 :: a :: b :: rest =>
    match digit? a, digit? b with
    | some high, some low => (16 * high + low) :: unescape rest
    | _, _ => 37 :: unescape (a :: b :: rest)
  | c :: rest => c :: unescape rest
  | [] => []

def decode? (s : String) : Option String := Wire.Text.decode? (unescape (Wire.Text.encode s))

end SharedWorld.Text.Percent
