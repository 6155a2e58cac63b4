import SharedWorld.Table

/-! The kinds of packets, the byte that opens a datagram of each, and how a packet is to travel. -/
namespace SharedWorld

inductive PacketKind
  | playerQuit | playerTimeout | playerNoSocket
  | playerPureSync | playerKeySync | cameraSync | vehiclePureSync | returnSync
  | command
deriving DecidableEq, Inhabited

namespace PacketKind

def all : List PacketKind :=
  [playerQuit, playerTimeout, playerNoSocket, playerPureSync, playerKeySync, cameraSync,
    vehiclePureSync, returnSync, command]

def byte : PacketKind → UInt8
  | playerQuit => 0x10
  | playerTimeout => 0x11
  | playerNoSocket => 0x12
  | playerPureSync => 0x20
  | playerKeySync => 0x21
  | cameraSync => 0x22
  | vehiclePureSync => 0x23
  | returnSync => 0x24
  | command => 0x30

def ofByte? (b : UInt8) : Option PacketKind := all.find? (fun k => k.byte == b)

theorem ofByte?_byte (k : PacketKind) : ofByte? k.byte = some k := by cases k <;> decide

instance : Ranked PacketKind where
  rank k := k.byte.toNat
  rank_injective := by intro a b; cases a <;> cases b <;> decide

/-- A client comes or goes; such packets are dealt with at once and never queued. -/
def isLifecycle : PacketKind → Bool
  | playerQuit | playerTimeout | playerNoSocket => true
  | _ => false

def label : PacketKind → String
  | playerQuit => "PlayerQuit"
  | playerTimeout => "PlayerTimeout"
  | playerNoSocket => "PlayerNoSocket"
  | playerPureSync => "PlayerPureSync"
  | playerKeySync => "PlayerKeySync"
  | cameraSync => "CameraSync"
  | vehiclePureSync => "VehiclePureSync"
  | returnSync => "ReturnSync"
  | command => "Command"

def key : PacketKind → String
  | playerQuit => "player_quit"
  | playerTimeout => "player_timeout"
  | playerNoSocket => "player_no_socket"
  | playerPureSync => "player_pure_sync"
  | playerKeySync => "player_key_sync"
  | cameraSync => "camera_sync"
  | vehiclePureSync => "vehicle_pure_sync"
  | returnSync => "return_sync"
  | command => "command"

end PacketKind

inductive Reliability
  | unreliable | reliable | sequenced | reliableSequenced | ordered
deriving DecidableEq, Inhabited

namespace Reliability

def label : Reliability → String
  | unreliable => "Unreliable"
  | reliable => "Reliable"
  | sequenced => "Sequenced"
  | reliableSequenced => "ReliableSequenced"
  | ordered => "Ordered"

end Reliability

inductive Priority
  | low | medium | high
deriving DecidableEq, Inhabited

namespace Priority

def label : Priority → String
  | low => "Low"
  | medium => "Medium"
  | high => "High"

end Priority

end SharedWorld
