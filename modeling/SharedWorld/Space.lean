import SharedWorld.Single.Angle

/-! Points, displacements and rotations. Rotations are in degrees about the three axes. -/
namespace SharedWorld

structure Vec2 where
  x : Single
  y : Single
deriving DecidableEq, Inhabited

structure Vec3 where
  x : Single
  y : Single
  z : Single
deriving DecidableEq, Inhabited

namespace Vec2

def zero : Vec2 := ⟨.zero, .zero⟩

def distanceSquared (a b : Vec2) : Single :=
  let dx := a.x - b.x
  let dy := a.y - b.y
  dx * dx + dy * dy

end Vec2

namespace Vec3

def zero : Vec3 := ⟨.zero, .zero, .zero⟩

instance : Add Vec3 := ⟨fun a b => ⟨a.x + b.x, a.y + b.y, a.z + b.z⟩⟩
instance : Sub Vec3 := ⟨fun a b => ⟨a.x - b.x, a.y - b.y, a.z - b.z⟩⟩

def scale (a : Vec3) (k : Single) : Vec3 := ⟨a.x * k, a.y * k, a.z * k⟩

def lengthSquared (a : Vec3) : Single := a.x * a.x + a.y * a.y + a.z * a.z

def length (a : Vec3) : Single := a.lengthSquared.sqrt

def distanceSquared (a b : Vec3) : Single := (a - b).lengthSquared

def distance (a b : Vec3) : Single := (a.distanceSquared b).sqrt

def flat (a : Vec3) : Vec2 := ⟨a.x, a.y⟩

def isFinite (a : Vec3) : Bool := a.x.isFinite && a.y.isFinite && a.z.isFinite

/-- Equality of the coordinates as numbers. -/
def same (a b : Vec3) : Bool := a.x.same b.x && a.y.same b.y && a.z.same b.z

end Vec3

structure Axes where
  right : Vec3
  forward : Vec3
  up : Vec3
deriving DecidableEq, Inhabited

namespace Axes

/-- The axes after turning about y, then x, then z. -/
def ofRotation (rotation : Vec3) : Axes :=
  let (sx, cx) := Single.Angle.sinCos (Single.Angle.ofDegrees rotation.x)
  let (sy, cy) := Single.Angle.sinCos (Single.Angle.ofDegrees rotation.y)
  let (sz, cz) := Single.Angle.sinCos (Single.Angle.ofDegrees rotation.z)
  { right := ⟨cz * cy - sz * sx * sy, sz * cy + cz * sx * sy, -cx * sy⟩
    forward := ⟨-sz * cx, cz * cx, sx⟩
    up := ⟨cz * sy + sz * sx * cy, sz * sy - cz * sx * cy, cx * cy⟩ }

/-- A local offset (right, forward, up) as a displacement in the world. -/
def apply (axes : Axes) (offset : Vec3) : Vec3 :=
  axes.right.scale offset.x + axes.forward.scale offset.y + axes.up.scale offset.z

end Axes
end SharedWorld
