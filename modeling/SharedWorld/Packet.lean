import SharedWorld.Packet.Kind
import SharedWorld.Wire.Layout

/-! What every kind of packet that carries data has: a layout, and how it wants to be delivered. -/
namespace SharedWorld

class Packet (α : Type) where
  kind : PacketKind
  reliability : Reliability
  priority : Priority
  layout : Wire.Layout α

namespace Packet
variable {α : Type} [Packet α]

def read (payload : List UInt8) : Except Wire.DecodeError α := (layout : Wire.Layout α).readAll payload

def write (packet : α) : List UInt8 := layout.write packet

end Packet
end SharedWorld
