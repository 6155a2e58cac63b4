import SharedWorld.Clients
import SharedWorld.Document
import SharedWorld.Event
import SharedWorld.Listeners
import SharedWorld.Packet.Player
import SharedWorld.Settings

/-! Values described in full, as documents: what an element holds, what an event tells, who a client
is, how a server is set up. A vector is the list of its coordinates, a choice is its label, and what
is not there is null. -/
namespace SharedWorld

class Described (α : Type) where
  describe : α → Document

export Described (describe)

instance : Described Bool := ⟨.flag⟩
instance : Described Nat := ⟨.count⟩
instance : Described String := ⟨.text⟩
instance : Described Single := ⟨.decimal⟩
instance : Described UInt8 := ⟨fun n => .count n.toNat⟩
instance : Described UInt16 := ⟨fun n => .count n.toNat⟩
instance : Described UInt32 := ⟨fun n => .count n.toNat⟩
instance : Described UInt64 := ⟨fun n => .count n.toNat⟩

section
variable {α : Type} [Described α]

instance : Described (Option α) := ⟨fun a => (a.map describe).getD .null⟩
instance : Described (List α) := ⟨fun as => .list (as.map describe)⟩
instance {n : Nat} : Described (Vector α n) := ⟨fun as => describe as.toList⟩

end

instance : Described Vec2 := ⟨fun v => describe [v.x, v.y]⟩
instance : Described Vec3 := ⟨fun v => describe [v.x, v.y, v.z]⟩
instance : Described ElementId := ⟨fun i => describe i.number⟩
instance : Described Endpoint := ⟨fun e => describe e.number⟩
instance : Described SubscriptionId := ⟨fun s => describe s.number⟩
instance : Described IdSet := ⟨fun s => describe s.toList⟩
instance : Described ElementType := ⟨fun t => describe t.label⟩
instance : Described PacketKind := ⟨fun k => describe k.label⟩
instance : Described Reliability := ⟨fun r => describe r.label⟩
instance : Described Priority := ⟨fun p => describe p.label⟩
instance : Described QuitReason := ⟨fun r => describe r.label⟩
instance : Described PlayerFlags := ⟨fun f => describe f.names⟩

instance : Described Weapon where
  describe w := .list [describe w.slot, describe w.kind, describe w.ammo, describe w.ammoInClip]

instance : Described Hit where
  describe h := .list [describe h.damager, describe h.weapon, describe h.bodyPart]

/-- The floor and the ceiling of a shape that has them. -/
def heightRange (height : Option (Single × Single)) : Document :=
  describe (height.map fun (floor, ceiling) => [floor, ceiling])

instance : Described Shape where
  describe
    | .sphere radius => .fields [("shape", .text "Sphere"), ("radius", describe radius)]
    | .circle radius => .fields [("shape", .text "Circle"), ("radius", describe radius)]
    | .cuboid dimensions =>
      .fields [("shape", .text "Cuboid"), ("dimensions", describe dimensions)]
    | .rectangle dimensions =>
      .fields [("shape", .text "Rectangle"), ("dimensions", describe dimensions)]
    | .tube radius height =>
      .fields [("shape", .text "Tube"), ("radius", describe radius), ("height", describe height)]
    | .polygon vertices height =>
      .fields [("shape", .text "Polygon"), ("points", describe vertices),
        ("height", heightRange height)]

instance : Described Camera where
  describe
    | .fixed position lookAt =>
      .fields [("position", describe position), ("look_at", describe lookAt)]
    | .following target => .fields [("target", describe target)]

instance : Described Player where
  describe p := .fields [("endpoint", describe p.endpoint), ("health", describe p.health),
    ("armor", describe p.armor), ("weapon", describe p.weapon),
    ("aim_origin", describe p.aimOrigin), ("aim_direction", describe p.aimDirection),
    ("camera_position", describe p.cameraPosition),
    ("camera_direction", describe p.cameraDirection),
    ("camera_rotation", describe p.cameraRotation), ("camera", describe p.camera),
    ("flags", describe p.flags), ("contact", describe p.contact), ("vehicle", describe p.vehicle)]

instance : Described Vehicle where
  describe v := .fields [("model", describe v.model), ("health", describe v.health),
    ("doors", describe v.damage.doors), ("wheels", describe v.damage.wheels),
    ("panels", describe v.damage.panels), ("lights", describe v.damage.lights),
    ("turret", describe v.turret), ("adjustable", describe v.adjustable),
    ("siren", describe v.siren), ("door_ratios", describe v.doorRatios),
    ("driver", describe v.driver), ("towing", describe v.towing), ("towed_by", describe v.towedBy)]

instance : Described ElementKind where
  describe
    | .root | .dummy => .fields []
    | .pickup model | .object model => .fields [("model", describe model)]
    | .shape s => describe s
    | .water w =>
      .fields [("vertices", describe w.vertices), ("is_shallow", describe w.isShallow)]
    | .player p => describe p
    | .vehicle v => describe v

instance : Described Attachment where
  describe a := .fields [("target", describe a.target), ("position", describe a.position),
    ("rotation", describe a.rotation)]

instance : Described Element where
  describe e := .fields [("id", describe e.id), ("type", describe e.type),
    ("parent", describe e.parent), ("children", describe e.children),
    ("attachment", describe e.attachment), ("attached", describe e.attached),
    ("position", describe e.position), ("rotation", describe e.rotation),
    ("velocity", describe e.velocity), ("turn_velocity", describe e.turnVelocity),
    ("kind", describe e.kind)]

/-- Where an element is and how it relates to others, and nothing else. -/
def Element.outline (e : Element) : Document :=
  let seats := match e.kind with
    | .player p => [("vehicle", describe p.vehicle)]
    | .vehicle v => [("driver", describe v.driver), ("towing", describe v.towing),
        ("towed_by", describe v.towedBy)]
    | _ => []
  .fields ([("id", describe e.id), ("type", describe e.type), ("position", describe e.position),
    ("parent", describe e.parent), ("children", describe e.children),
    ("attached_to", describe e.target?), ("attached", describe e.attached)] ++ seats)

instance : Described WorldEvent where
  describe
    | .clientConnected endpoint player => .fields [("event", .text "ClientConnected"),
        ("endpoint", describe endpoint), ("player", describe player)]
    | .clientDisconnected endpoint player reason => .fields [
        ("event", .text "ClientDisconnected"), ("endpoint", describe endpoint),
        ("player", describe player), ("reason", describe reason)]
    | .playerDamaged player damager weapon bodyPart => .fields [("event", .text "PlayerDamaged"),
        ("player", describe player), ("damager", describe damager), ("weapon", describe weapon),
        ("body_part", describe bodyPart)]
    | .playerCommand player command arguments => .fields [("event", .text "PlayerCommand"),
        ("player", describe player), ("command", describe command),
        ("arguments", describe arguments)]
    | .shapeEntered shape element => .fields [("event", .text "ColShapeEntered"),
        ("shape", describe shape), ("element", describe element)]
    | .shapeLeft shape element => .fields [("event", .text "ColShapeLeft"),
        ("shape", describe shape), ("element", describe element)]
    | .polygonPointChanged shape index => .fields [("event", .text "PolygonPointChanged"),
        ("shape", describe shape), ("index", describe index)]

instance : Described Client where
  describe c := .fields [("endpoint", describe c.endpoint), ("player", describe c.player),
    ("connected", describe c.connected), ("latency", describe c.latency),
    ("wire_latency", describe c.wireLatency)]

instance {α : Type} : Described (Queue α) where
  describe q := .fields [("packet", describe q.kind), ("workers", describe q.workers),
    ("pending", describe q.pending), ("enqueued", describe q.enqueued),
    ("handled", describe q.handled), ("failed", describe q.failed),
    ("dropped", describe q.dropped)]

instance : Described QueueConfig where
  describe c := .fields [("sleep_ms", describe c.sleepMillis), ("workers", describe c.workers),
    ("capacity", describe c.capacity), ("batch", describe c.batch),
    ("budget_ms", describe c.budgetMillis)]

instance : Described Settings where
  describe s := .fields [("status_addr", .text s.statusAddress.render),
    ("udp_addr", .text s.udpAddress.render), ("log_level", describe s.logLevel),
    ("sync_sleep_interval_ms", describe s.syncSleepMillis),
    ("sync_worker_count", describe s.syncWorkers),
    ("sync_queue_capacity", describe s.syncCapacity), ("sync_batch_size", describe s.syncBatch),
    ("handler_budget_ms", describe s.handlerBudgetMillis),
    ("command_worker_count", describe s.commandWorkers),
    ("collision_interval_ms", describe s.collisionMillis),
    ("spatial_cell_size", describe s.cellSize), ("inbound_packet_rate", describe s.inboundRate),
    ("sync_queue", describe s.syncQueue), ("command_queue", describe s.commandQueue)]

end SharedWorld
