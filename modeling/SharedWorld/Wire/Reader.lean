/-! Reading fields off the front of a payload. A reader answers with a value or a fault, and with
the bytes it has left; a fault leaves what was not yet consumed. -/
namespace SharedWorld.Wire

inductive DecodeError
  | unexpectedEnd (needed remaining : Nat)
  | trailingBytes (count : Nat)
  | invalidValue (field : String) (value : Nat)
  | invalidText
deriving DecidableEq, Inhabited

def DecodeError.name : DecodeError → String
  | unexpectedEnd .. => "UnexpectedEof"
  | trailingBytes _ => "TrailingBytes"
  | invalidValue .. => "InvalidValue"
  | invalidText => "InvalidUtf8"

def DecodeError.message : DecodeError → String
  | unexpectedEnd needed remaining =>
    s!"Unexpected end of packet: needed {needed} bytes, {remaining} left"
  | trailingBytes count => s!"{count} trailing bytes after packet"
  | invalidValue field value => s!"Invalid value {value} for {field}"
  | invalidText => "String field is not valid UTF-8"

def Reader (α : Type) : Type := List UInt8 → Except DecodeError α × List UInt8

namespace Reader
variable {α β : Type}

protected def pure (a : α) : Reader α := fun bytes => (.ok a, bytes)

protected def bind (r : Reader α) (f : α → Reader β) : Reader β := fun bytes =>
  match r bytes with
  | (.ok a, rest) => f a rest
  | (.error e, rest) => (.error e, rest)

instance : Monad Reader where
  pure := Reader.pure
  bind := Reader.bind

def fail (e : DecodeError) : Reader α := fun bytes => (.error e, bytes)

def ofExcept : Except DecodeError α → Reader α
  | .ok a => Reader.pure a
  | .error e => fail e

def u8 : Reader UInt8
  | a :: rest => (.ok a, rest)
  | [] => (.error (.unexpectedEnd 1 0), [])

def u16 : Reader UInt16
  | a :: b :: rest => (.ok (.ofNat (a.toNat + 256 * b.toNat)), rest)
  | short => (.error (.unexpectedEnd 2 short.length), short)

def u32 : Reader UInt32
  | a :: b :: c :: d :: rest =>
    (.ok (.ofNat (a.toNat + 256 * (b.toNat + 256 * (c.toNat + 256 * d.toNat)))), rest)
  | short => (.error (.unexpectedEnd 4 short.length), short)

def bytes (count : Nat) : Reader (List UInt8) := fun input =>
  if input.length < count then (.error (.unexpectedEnd count input.length), input)
  else (.ok (input.take count), input.drop count)

/-- So many values in a row. -/
def replicate (r : Reader α) : Nat → Reader (List α)
  | 0 => Reader.pure []
  | n + 1 => r.bind fun a => (replicate r n).bind fun as => Reader.pure (a :: as)

/-- The end of the payload. -/
def finish : Reader Unit
  | [] => (.ok (), [])
  | rest => (.error (.trailingBytes rest.length), rest)

end Reader
end SharedWorld.Wire
