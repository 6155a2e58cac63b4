import SharedWorld.Realm
import SharedWorld.Packet.Command

/-! Packets of a player on foot. What a client says about itself is taken over, passed on to the
others with the server's word on who it is, and confirmed; what it says about others is not. -/
namespace SharedWorld.Realm

def onFootState (packet : PlayerSync) (contact : Option ElementId) (p : Player) : Player :=
  { p with
    health := packet.health
    armor := packet.armor
    weapon := packet.weapon
    aimOrigin := packet.aimOrigin
    aimDirection := packet.aimDirection
    cameraPosition := packet.cameraPosition
    cameraDirection := packet.cameraDirection
    cameraRotation := packet.cameraRotation
    flags := packet.flags
    contact }

def onFootTransform (packet : PlayerSync) (e : Element) : Element :=
  { e with
    position := packet.position
    rotation := { e.rotation with z := packet.rotation }
    velocity := packet.velocity }

def handlePlayer (r : Realm) (sender : Client) (packet : PlayerSync) :
    Except WorldError Unit × Realm :=
  let player := sender.player
  let r := r.echo sender { position := packet.position }
  let r := r.relay sender { packet with player, latency := 0 }
  let contact := r.store.resolve packet.contact
  match r.store.updatePlayer player (onFootState packet contact) (onFootTransform packet) with
  | .error e => (.error e, r)
  | .ok store =>
    let r := r.withStore (store.propagate player).2
    (.ok (), r.reportHit player packet.hit)

/-- Controls are passed on and not kept. -/
def handleKeys (r : Realm) (sender : Client) (packet : KeySync) : Except WorldError Unit × Realm :=
  (.ok (), r.relay sender { packet with player := sender.player })

def handleCamera (r : Realm) (sender : Client) (packet : CameraSync) :
    Except WorldError Unit × Realm :=
  let camera : Camera := match packet.camera with
    | .fixed position lookAt => .fixed position lookAt
    | .following target => .following (r.store.resolve target)
  match r.store.updatePlayer sender.player ({ · with camera }) (fun e => e) with
  | .error e => (.error e, r)
  | .ok store => (.ok (), r.withStore store)

def handleCommand (r : Realm) (sender : Client) (packet : SharedWorld.Command) :
    Except WorldError Unit × Realm :=
  let name := Text.Blank.trim packet.command.toList
  if name.isEmpty then (.ok (), r)
  else
    (.ok (), r.publish (.playerCommand sender.player (String.ofList name) packet.argumentList))

end SharedWorld.Realm
