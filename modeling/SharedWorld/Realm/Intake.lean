import SharedWorld.Realm.InVehicle
import SharedWorld.Realm.OnFoot

/-! Taking in a payload: who has left by then is not heard any more, what cannot be read is
refused, and the rest goes to the handler of its kind. -/
namespace SharedWorld

inductive IntakeError
  | malformed (kind : PacketKind) (cause : Wire.DecodeError)
  | refused (kind : PacketKind) (player : ElementId) (cause : WorldError)
deriving DecidableEq

/-- The message leads from the packet to the cause; what could not be read is named twice, as the
fault of the packet and as the fault of the reader. -/
def IntakeError.message : IntakeError → String
  | malformed kind cause =>
    let (label, text) := (kind.label, cause.message)
    s!"decoding {label}: Malformed packet: {text}: {text}"
  | refused kind player cause =>
    let (label, text) := (kind.label, cause.message)
    s!"handling {label} for player {player}: {text}"

namespace Realm

def takeAs {α : Type} [Packet α] (handle : Realm → Client → α → Except WorldError Unit × Realm)
    (r : Realm) (sender : Client) (payload : List UInt8) : Except IntakeError Unit × Realm :=
  match (Packet.read payload : Except Wire.DecodeError α) with
  | .error e => (.error (.malformed (Packet.kind α) e), r)
  | .ok packet =>
    match handle r sender packet with
    | (.ok (), r) => (.ok (), r)
    | (.error e, r) => (.error (.refused (Packet.kind α) sender.player e), r)

def handled : List PacketKind :=
  [.playerPureSync, .vehiclePureSync, .playerKeySync, .cameraSync, .command]

def take (kind : PacketKind) (r : Realm) (sender : Client) (payload : List UInt8) :
    Except IntakeError Unit × Realm :=
  if ¬ sender.connected then (.ok (), r)
  else
    match kind with
    | .playerPureSync => takeAs handlePlayer r sender payload
    | .vehiclePureSync => takeAs handleVehicle r sender payload
    | .playerKeySync => takeAs handleKeys r sender payload
    | .cameraSync => takeAs handleCamera r sender payload
    | .command => takeAs handleCommand r sender payload
    | _ => (.ok (), r)

end Realm
end SharedWorld
