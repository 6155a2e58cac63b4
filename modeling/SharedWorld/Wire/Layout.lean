import SharedWorld.Id
import SharedWorld.Space
import SharedWorld.Wire.Reader
import SharedWorld.Wire.Text

/-! Layouts: how a value lies on the wire, as a reader and a writer side by side. Layouts of whole
packets are put together from those of their fields, in the order of the fields. -/
namespace SharedWorld.Wire

structure Layout (α : Type) where
  read : Reader α
  write : α → List UInt8

namespace Layout
variable {α β : Type}

def u8 : Layout UInt8 := ⟨.u8, fun n => [n]⟩

def u16 : Layout UInt16 where
  read := .u16
  write n := [.ofNat n.toNat, .ofNat (n.toNat / 256)]

def u32 : Layout UInt32 where
  read := .u32
  write n := [.ofNat n.toNat, .ofNat (n.toNat / 256), .ofNat (n.toNat / 65536),
    .ofNat (n.toNat / 16777216)]

def both (first : Layout α) (second : Layout β) : Layout (α × β) where
  read := do
    let a ← first.read
    let b ← second.read
    return (a, b)
  write x := first.write x.1 ++ second.write x.2

def as (layout : Layout α) (make : α → β) (take : β → α) : Layout β where
  read := do return make (← layout.read)
  write b := layout.write (take b)

/-- The same bytes, of which some are refused after they were read. -/
def accept (layout : Layout α) (make : α → Except DecodeError β) (take : β → α) : Layout β where
  read := do .ofExcept (make (← layout.read))
  write b := layout.write (take b)

def i16 : Layout Int16 := u16.as UInt16.toInt16 Int16.toUInt16

def single : Layout Single := u32.as Single.mk Single.bits

def vec2 : Layout Vec2 := (single.both single).as (fun (x, y) => ⟨x, y⟩) (fun v => (v.x, v.y))

def vec3 : Layout Vec3 :=
  (single.both (single.both single)).as (fun (x, y, z) => ⟨x, y, z⟩) (fun v => (v.x, v.y, v.z))

def id : Layout ElementId := u32.as ElementId.mk ElementId.number

/-- No element is written as the invalid identifier. -/
def optionalId : Layout (Option ElementId) :=
  id.as (fun i => if i = .invalid then none else some i) (fun o => o.getD .invalid)

def flag (field : String) : Layout Bool :=
  u8.accept
    (fun n => if n = 0 then .ok false else if n = 1 then .ok true
      else .error (.invalidValue field n.toNat))
    (fun b => if b then 1 else 0)

def optional (field : String) (layout : Layout α) : Layout (Option α) where
  read := do
    if ← (flag field).read then return some (← layout.read) else return none
  write
    | none => (flag field).write false
    | some a => (flag field).write true ++ layout.write a

/-- A count in one byte, then so many values; no more than the byte can count are written. -/
def counted (layout : Layout α) : Layout (List α) where
  read := do layout.read.replicate (← u8.read).toNat
  write as :=
    let kept := as.take 255
    .ofNat kept.length :: kept.flatMap layout.write

/-- A count in one byte, then so many bytes; a count above `limit` is refused, and no more bytes
are written. -/
def limited (field : String) (limit : Nat) : Layout (List UInt8) where
  read := do
    let count ← u8.read
    if limit < count.toNat then .fail (.invalidValue field count.toNat)
    else .bytes count.toNat
  write bs :=
    let kept := bs.take limit
    .ofNat kept.length :: kept

def replicate (layout : Layout α) (n : Nat) (fill : α) : Layout (Vector α n) where
  read := do
    let as ← layout.read.replicate n
    return Vector.ofFn fun i => as.getD i fill
  write v := v.toList.flatMap layout.write

def text : Layout String where
  read := do
    let bytes ← Reader.bytes (← u16.read).toNat
    match Text.decode? bytes with
    | some s => return s
    | none => .fail .invalidText
  write s :=
    let bytes := Text.encode (Text.truncate s)
    u16.write (.ofNat bytes.length) ++ bytes

def readAll (layout : Layout α) (payload : List UInt8) : Except DecodeError α :=
  ((do
    let a ← layout.read
    Reader.finish
    return a : Reader α) payload).1

end Layout
end SharedWorld.Wire
