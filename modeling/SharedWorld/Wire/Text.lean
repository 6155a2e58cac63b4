/-! Text on the wire: UTF-8, cut to what a two-byte length can count without splitting a
character. -/
namespace SharedWorld.Wire.Text

/-- The longest run of whole characters from the front that fits into `budget` bytes. -/
def cut : (budget : Nat) → List Char → List Char
  | _, [] => []
  | budget, c :: rest => if c.utf8Size ≤ budget then c :: cut (budget - c.utf8Size) rest else []

def limit : Nat := 65535

def truncate (s : String) : String := String.ofList (cut limit s.toList)

def encode (s : String) : List UInt8 := s.toByteArray.data.toList

def decode? (bytes : List UInt8) : Option String := String.fromUTF8? ⟨bytes.toArray⟩

theorem decode?_encode (s : String) : decode? (encode s) = some s := by
  have h : (encode s).toArray = s.toByteArray.data := Array.toArray_toList
  unfold decode?
  rw [h]
  exact dif_pos s.isValidUTF8

theorem eq_encode_of_decode? {bytes : List UInt8} {s : String} (h : decode? bytes = some s) :
    bytes = encode s := by
  unfold decode? String.fromUTF8? at h
  split at h
  · injection h with h
    subst h
    rfl
  · exact absurd h (by simp)

end SharedWorld.Wire.Text
