/-! White space as the character standard lists it: twenty-five code points. -/
namespace SharedWorld.Text.Blank

def ranges : List (Nat × Nat) :=
  [(0x09, 0x0d), (0x20, 0x20), (0x85, 0x85), (0xa0, 0xa0), (0x1680, 0x1680), (0x2000, 0x200a),
    (0x2028, 0x2029), (0x202f, 0x202f), (0x205f, 0x205f), (0x3000, 0x3000)]

def isBlank (c : Char) : Bool := ranges.any fun (low, high) => low ≤ c.toNat && c.toNat ≤ high

theorem isBlank_of_isWhitespace {c : Char} (h : c.isWhitespace = true) : isBlank c = true := by
  simp only [Char.isWhitespace, Bool.or_eq_true, decide_eq_true_eq] at h
  rcases h with ((rfl | rfl) | rfl) | rfl <;> rfl

/-- The words between blanks. -/
def words (cs : List Char) : List (List Char) := go cs []
where
  go : List Char → (word : List Char) → List (List Char)
    | [], word => if word.isEmpty then [] else [word.reverse]
    | c :: rest, word =>
      if isBlank c then if word.isEmpty then go rest [] else word.reverse :: go rest []
      else go rest (c :: word)

def trim (cs : List Char) : List Char :=
  ((cs.dropWhile isBlank).reverse.dropWhile isBlank).reverse

end SharedWorld.Text.Blank
