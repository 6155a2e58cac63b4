/-! Internet addresses with a port, read from and written as text: four decimal numbers, or eight
groups of hexadecimal digits in brackets, of which one run of zeros may be left out. -/
namespace SharedWorld

inductive SocketAddress
  | v4 (octets : List Nat) (port : Nat)
  | v6 (groups : List Nat) (scope port : Nat)
deriving DecidableEq

namespace SocketAddress

abbrev Scan (α : Type) := List Char → Option (α × List Char)

def char (c : Char) : Scan Unit
  | d :: rest => if d = c then some ((), rest) else none
  | [] => none

def digit? (radix : Nat) (c : Char) : Option Nat :=
  let n := c.toNat
  let value :=
    if '0'.toNat ≤ n ∧ n ≤ '9'.toNat then n - '0'.toNat
    else if 'a'.toNat ≤ n ∧ n ≤ 'f'.toNat then n - 'a'.toNat + 10
    else if 'A'.toNat ≤ n ∧ n ≤ 'F'.toNat then n - 'A'.toNat + 10
    else radix
  if value < radix then some value else none

/-- A number under `limit`, of all the digits there are; at most `maxDigits` of them, and leading
zeros only where they are allowed. -/
def number (radix limit : Nat) (maxDigits : Option Nat) (zeros : Bool) : Scan Nat := fun cs =>
  let digits := cs.takeWhile fun c => (digit? radix c).isSome
  let value := digits.foldl (fun n c => radix * n + (digit? radix c).getD 0) 0
  if digits.isEmpty ∨ maxDigits.any (fun m => m < digits.length) ∨ limit ≤ value ∨
      (¬ zeros ∧ digits.head? = some '0' ∧ 1 < digits.length)
  then none
  else some (value, cs.drop digits.length)

def octet : Scan Nat := number 10 256 (some 3) false

def octets : Scan (List Nat) := fun cs => do
  let (a, cs) ← octet cs
  let (_, cs) ← char '.' cs
  let (b, cs) ← octet cs
  let (_, cs) ← char '.' cs
  let (c, cs) ← octet cs
  let (_, cs) ← char '.' cs
  let (d, cs) ← octet cs
  return ([a, b, c, d], cs)

def port : Scan Nat := fun cs => do
  let (_, cs) ← char ':' cs
  number 10 65536 none true cs

def separated {α : Type} (first : Bool) (scan : Scan α) : Scan α := fun cs => do
  let (_, cs) ← if first then some ((), cs) else char ':' cs
  scan cs

/-- Up to `room` groups; the last two may be written as four decimal numbers, and then nothing
follows. Also tells whether they were. -/
def groups : (room : Nat) → (first : Bool) → List Char → List Nat × Bool × List Char
  | 0, _, cs => ([], false, cs)
  | room + 1, first, cs =>
    match if 0 < room then separated first octets cs else none with
    | some ([a, b, c, d], rest) => ([256 * a + b, 256 * c + d], true, rest)
    | _ =>
      match separated first (number 16 65536 (some 4) true) cs with
      | some (group, rest) =>
        let (more, embedded, rest) := groups room false rest
        (group :: more, embedded, rest)
      | none => ([], false, cs)

def address6 : Scan (List Nat) := fun cs =>
  let (head, embedded, cs) := groups 8 true cs
  if head.length = 8 then some (head, cs)
  else if embedded then none
  else do
    let (_, cs) ← char ':' cs
    let (_, cs) ← char ':' cs
    let (tail, _, cs) := groups (7 - head.length) true cs
    return (head ++ List.replicate (8 - head.length - tail.length) 0 ++ tail, cs)

def socket4 : Scan SocketAddress := fun cs => do
  let (octets, cs) ← octets cs
  let (port, cs) ← port cs
  return (.v4 octets port, cs)

def scope (cs : List Char) : Nat × List Char :=
  match cs with
  | '%' :: rest => (number 10 4294967296 none true rest).getD (0, cs)
  | _ => (0, cs)

def socket6 : Scan SocketAddress := fun cs => do
  let (_, cs) ← char '[' cs
  let (groups, cs) ← address6 cs
  let (scope, cs) := scope cs
  let (_, cs) ← char ']' cs
  let (port, cs) ← port cs
  return (.v6 groups scope port, cs)

def parse? (cs : List Char) : Option SocketAddress :=
  match (socket4 cs).orElse fun _ => socket6 cs with
  | some (address, []) => some address
  | _ => none

def hex (n : Nat) : String := String.ofList (Nat.toDigits 16 n)

def dotted (octets : List Nat) : String := ".".intercalate (octets.map toString)

/-- Start and length of the first longest run of zero groups. -/
def longestZeros (groups : List Nat) : Nat × Nat :=
  let (_, _, best) := groups.foldl (fun (index, run, best) g =>
    if g = 0 then
      let run := run + 1
      (index + 1, run, if best.2 < run then (index + 1 - run, run) else best)
    else (index + 1, 0, best)) (0, 0, (0, 0))
  best

def colons (groups : List Nat) : String := ":".intercalate (groups.map hex)

def showGroups (groups : List Nat) : String :=
  match groups with
  | [0, 0, 0, 0, 0, 0xffff, a, b] => "::ffff:" ++ dotted [a / 256, a % 256, b / 256, b % 256]
  | _ =>
    let (start, length) := longestZeros groups
    if 1 < length then colons (groups.take start) ++ "::" ++ colons (groups.drop (start + length))
    else colons groups

def render : SocketAddress → String
  | v4 octets port => dotted octets ++ ":" ++ toString port
  | v6 groups scope port =>
    let zone := if scope = 0 then "" else "%" ++ toString scope
    "[" ++ showGroups groups ++ zone ++ "]:" ++ toString port

end SocketAddress
end SharedWorld
