import SharedWorld.Proofs.Packet.RoundTrip
import SharedWorld.Proofs.Realm.Handlers
import SharedWorld.Proofs.Clients
import SharedWorld.Proofs.World.Run

/-! What goes out when a packet is handled. The sender is told of the place that was taken over, and
the others get the payload as it came, but for the server's word on who sent it, how late it is and
what the vehicle looks like. -/
namespace SharedWorld

open Wire

namespace Clients

def Registers (cs : Clients) (c : Client) : Prop :=
  ∃ endpoint id, cs.find? endpoint = some id ∧ cs.get? id = some c

/-- Each client is registered under the endpoint that it has. -/
def AtOwnEndpoints (cs : Clients) : Prop :=
  ∀ endpoint id, cs.find? endpoint = some id → ∃ c, cs.get? id = some c ∧ c.endpoint = endpoint

/-- The ascending list of the endpoints of all that are connected, without that of the sender. -/
structure Audience (cs : Clients) (sender : Endpoint) (listed : List Endpoint) : Prop where
  ascending : listed.Pairwise (rank · < rank ·)
  mem_iff : ∀ e, e ∈ listed ↔ e ≠ sender ∧ ∃ c, cs.Registers c ∧ c.connected ∧ c.endpoint = e

variable {cs : Clients}

theorem mem_connected (own : cs.AtOwnEndpoints) (e : Endpoint) :
    e ∈ cs.connected ↔ ∃ c, cs.Registers c ∧ c.connected ∧ c.endpoint = e := by
  unfold connected isConnected
  simp only [List.mem_map, List.mem_filter, Option.any_eq_true]
  constructor
  · rintro ⟨⟨endpoint, id⟩, ⟨entry, c, hc, connected⟩, rfl⟩
    have found : cs.find? endpoint = some id := Table.find?_of_mem entry
    obtain ⟨c', hc', there⟩ := own endpoint id found
    cases hc.symm.trans hc'
    exact ⟨c, ⟨endpoint, id, found, hc⟩, connected, there⟩
  · rintro ⟨c, ⟨endpoint, id, found, hc⟩, connected, rfl⟩
    obtain ⟨c', hc', there⟩ := own endpoint id found
    cases hc.symm.trans hc'
    exact ⟨(endpoint, id), ⟨Table.mem_of_find? found, c, hc, connected⟩, there.symm⟩

theorem others_audience (own : cs.AtOwnEndpoints) (sender : Endpoint) :
    cs.Audience sender (cs.others sender) where
  ascending := by
    have listed : cs.connected.Pairwise (rank · < rank ·) :=
      List.pairwise_map.mpr (cs.registered.ascending.filter _)
    exact listed.filter _
  mem_iff e := by rw [← mem_connected own, others, List.mem_filter, and_comm, decide_eq_true_eq]

theorem AtOwnEndpoints.enlist (own : cs.AtOwnEndpoints) (c : Client) :
    (cs.enlist c).2.AtOwnEndpoints := by
  intro endpoint id found
  rw [find?_enlist] at found
  split at found
  · next here =>
    cases found
    exact ⟨c, get?_enlist_self cs c, here.symm⟩
  · obtain ⟨c', known, there⟩ := own endpoint id found
    exact ⟨c', get?_enlist known, there⟩

end Clients

/-- The two numbers at the front may be any; the rest of a packet on foot stays as it is. -/
theorem PlayerSync.write_stamped (p : PlayerSync) : ∃ rest, ∀ player latency,
    Packet.write ({ p with player, latency } : PlayerSync) =
      Layout.id.write player ++ (Layout.u16.write latency ++ (Layout.flags.write p.flags ++
        (Layout.vec3.write p.position ++ rest))) := by
  dsimp only [Packet.write, Packet.layout, Layout.playerSync, Layout.as, Layout.both]
  simp only [List.append_cancel_left_eq]
  exact ⟨_, fun _ _ => rfl⟩

theorem KeySync.write_stamped (p : KeySync) : ∃ rest, ∀ player,
    Packet.write ({ p with player } : KeySync) = Layout.id.write player ++ rest := by
  dsimp only [Packet.write, Packet.layout, Layout.keySync, Layout.as, Layout.both]
  simp only [List.append_cancel_left_eq]
  exact ⟨_, fun _ => rfl⟩

theorem VehicleSync.write_stamped (p : VehicleSync) : ∃ rest, ∀ player latency damage,
    Packet.write ({ p with player, latency, damage } : VehicleSync) =
      Layout.id.write player ++ (Layout.u16.write latency ++ (Layout.id.write p.vehicle ++
        (Layout.u8.write p.seat ++ (Layout.vec3.write p.position ++
          (Layout.vec3.write p.rotation ++ (rest ++ Layout.damageReport.write damage)))))) := by
  dsimp only [Packet.write, Packet.layout, Layout.vehicleSync, Layout.as, Layout.both]
  simp only [List.append_cancel_left_eq]
  simp only [← List.append_assoc, List.append_cancel_right_eq]
  exact ⟨_, fun _ _ _ => rfl⟩

def measured (bytes : List UInt8) : List UInt8 := .ofNat bytes.length :: bytes

def DamageReport.bytes (d : DamageReport) : List UInt8 :=
  measured d.doors ++ measured d.wheels ++ measured d.panels ++ measured d.lights

def Damage.bytes (d : Damage) : List UInt8 :=
  6 :: d.doors.toList ++ 4 :: d.wheels.toList ++ 7 :: d.panels.toList ++ 4 :: d.lights.toList

/-- The damage of the vehicle that a player sits in, as bytes; four empty lists if there is none. -/
def Store.damageBytes (s : Store) (player : ElementId) : List UInt8 :=
  let seat := (s.player player).toOption.bind (·.vehicle)
  match seat.bind fun vehicle => (s.vehicle vehicle).toOption with
  | some v => v.damage.bytes
  | none => [0, 0, 0, 0]

theorem DamageReport.write_of_isNormal {d : DamageReport} (h : d.IsNormal) :
    Layout.damageReport.write d = d.bytes := by
  obtain ⟨doors, wheels, panels, lights⟩ := h
  simp only [Layout.damageReport, Layout.as, Layout.both, Layout.limited, bytes, measured,
    List.take_of_length_le doors, List.take_of_length_le wheels, List.take_of_length_le panels,
    List.take_of_length_le lights, List.append_assoc]

theorem DamageReport.write_ofDamage (d : Damage) :
    Layout.damageReport.write (ofDamage d) = d.bytes := by
  have normal : (ofDamage d).IsNormal := by simp [IsNormal, ofDamage]
  rw [write_of_isNormal normal]
  simp [bytes, Damage.bytes, ofDamage, measured]

namespace Outbox

def following (out : Outbox) (traffic : List Outgoing) : Outbox :=
  { out with sent := out.sent ++ traffic }

theorem following_nil (out : Outbox) : out.following [] = out := by
  unfold following
  rw [List.append_nil]

theorem following_following (out : Outbox) (traffic more : List Outgoing) :
    (out.following traffic).following more = out.following (traffic ++ more) := by
  unfold following
  rw [List.append_assoc]

end Outbox

def Outgoing.toSender (sender : Client) (payload : List UInt8) : Outgoing :=
  ⟨[sender.endpoint], .returnSync, .sequenced, .medium, payload⟩

def Outgoing.toAll (listed : List Endpoint) (kind : PacketKind) (payload : List UInt8) :
    List Outgoing :=
  if listed = [] then [] else [⟨listed, kind, .sequenced, .medium, payload⟩]

open Outgoing

namespace Realm
variable {r : Realm} {sender : Client}

theorem relay_outbox {α : Type} [Packet α] (r : Realm) (sender : Client) (packet : α)
    (reliability : Packet.reliability α = .sequenced) (priority : Packet.priority α = .medium) :
    (r.relay sender packet).outbox = r.outbox.following
      (toAll (r.clients.others sender.endpoint) (Packet.kind α) (Packet.write packet)) := by
  unfold relay send Outbox.send toAll
  cases r.clients.others sender.endpoint with
  | nil => exact (Outbox.following_nil _).symm
  | cons e rest =>
    rw [reliability, priority]
    rfl

theorem handlePlayer_outbox (r : Realm) (sender : Client) (packet : PlayerSync) :
    (r.handlePlayer sender packet).2.outbox = r.outbox.following
      (toSender sender (Packet.write ({ position := packet.position } : ReturnSync)) ::
        toAll (r.clients.others sender.endpoint) .playerPureSync
          (Packet.write { packet with player := sender.player, latency := 0 })) := by
  rw [handlePlayer_eq, (walkOn_secluded sender packet).outbox, tellOnFoot,
    relay_outbox _ _ _ rfl rfl]
  exact Outbox.following_following ..

theorem handleVehicle_outbox (live : r.store.contains sender.player) (packet : VehicleSync) :
    (r.handleVehicle sender packet).2.outbox = r.outbox.following
      (toSender sender (Packet.write
        ({ position := packet.position, rotation := some packet.rotation } : ReturnSync)) ::
        toAll (r.clients.others sender.endpoint) .vehiclePureSync
          (Packet.write (r.stamped sender packet))) := by
  rw [handleVehicle_eq live, (rideOn_secluded sender _ packet).outbox, tellInVehicle,
    relay_outbox _ _ _ rfl rfl]
  exact Outbox.following_following ..

theorem handleKeys_outbox (r : Realm) (sender : Client) (packet : KeySync) :
    (r.handleKeys sender packet).2.outbox = r.outbox.following
      (toAll (r.clients.others sender.endpoint) .playerKeySync
        (Packet.write { packet with player := sender.player })) :=
  relay_outbox r sender _ rfl rfl

theorem knownDamage_bytes (r : Realm) (sender : Client) :
    Layout.damageReport.write (knownDamage r.store (r.seat sender)) =
      r.store.damageBytes sender.player := by
  have seat : r.seat sender = (r.store.player sender.player).toOption.bind (·.vehicle) := by
    unfold seat Store.player
    cases r.store.find? sender.player with
    | none => rfl
    | some e => cases h : e.player? <;> simp [h, Except.toOption]
  unfold knownDamage Store.damageBytes
  rw [seat]
  dsimp only
  cases Option.bind _ fun vehicle => (r.store.vehicle vehicle).toOption with
  | none => rfl
  | some v => exact DamageReport.write_ofDamage v.damage

section Payloads
variable {payload : List UInt8}

theorem takeAs_outbox {α : Type} [Packet α]
    {handle : Realm → Client → α → Except WorldError Unit × Realm} {packet : α}
    (h : Packet.read payload = .ok packet) (r : Realm) (sender : Client) :
    (takeAs handle r sender payload).2.outbox = (handle r sender packet).2.outbox := by
  unfold takeAs
  rw [h]
  dsimp only
  split <;> (next answer => rw [answer])

theorem takeAs_silent {α : Type} [Packet α]
    {handle : Realm → Client → α → Except WorldError Unit × Realm}
    (silent : ∀ packet, Secluded fun r => handle r sender packet) (r : Realm)
    (payload : List UInt8) : (takeAs handle r sender payload).2.outbox = r.outbox := by
  cases h : (Packet.read payload : Except DecodeError α) with
  | error e =>
    unfold takeAs
    rw [h]
  | ok packet => exact (takeAs_outbox h r sender).trans ((silent packet).outbox r)

theorem takePlayer_outbox {packet : PlayerSync} (h : Packet.read payload = .ok packet) (r : Realm)
    (sender : Client) :
    (takeAs handlePlayer r sender payload).2.outbox = r.outbox.following
      (toSender sender ((payload.drop 8).take 12 ++ [0]) ::
        toAll (r.clients.others sender.endpoint) .playerPureSync
          (Layout.id.write sender.player ++ [0, 0] ++ payload.drop 6)) := by
  obtain ⟨rest, written⟩ := packet.write_stamped
  have whole : Packet.write packet = payload := (Packet.read_eq_ok.mp h).2
  have came : payload = _ := whole.symm.trans (written packet.player packet.latency)
  rw [takeAs_outbox h, handlePlayer_outbox, written, came]
  rfl

theorem takeKeys_outbox {packet : KeySync} (h : Packet.read payload = .ok packet) (r : Realm)
    (sender : Client) :
    (takeAs handleKeys r sender payload).2.outbox = r.outbox.following
      (toAll (r.clients.others sender.endpoint) .playerKeySync
        (Layout.id.write sender.player ++ payload.drop 4)) := by
  obtain ⟨rest, written⟩ := packet.write_stamped
  have whole : Packet.write packet = payload := (Packet.read_eq_ok.mp h).2
  have came : payload = _ := whole.symm.trans (written packet.player)
  rw [takeAs_outbox h, handleKeys_outbox, written, came]
  rfl

theorem takeVehicle_outbox {packet : VehicleSync} (h : Packet.read payload = .ok packet)
    (live : r.store.contains sender.player) : ∃ body,
    payload.drop 6 = body ++ packet.damage.bytes ∧
      (takeAs handleVehicle r sender payload).2.outbox = r.outbox.following
        (toSender sender ((payload.drop 11).take 12 ++ 1 :: (payload.drop 23).take 12) ::
          toAll (r.clients.others sender.endpoint) .vehiclePureSync
            (Layout.id.write sender.player ++ Layout.u16.write sender.wireLatency ++ body ++
              r.store.damageBytes sender.player)) := by
  obtain ⟨rest, written⟩ := packet.write_stamped
  obtain ⟨normal, whole⟩ := Packet.read_eq_ok.mp h
  have came : payload = _ := whole.symm.trans (written packet.player packet.latency packet.damage)
  rw [DamageReport.write_of_isNormal normal.2.2] at came
  refine ⟨Layout.id.write packet.vehicle ++ (Layout.u8.write packet.seat ++
    (Layout.vec3.write packet.position ++ (Layout.vec3.write packet.rotation ++ rest))), ?_, ?_⟩
  · rw [came]
    simp only [List.append_assoc]
    rfl
  · rw [takeAs_outbox h, handleVehicle_outbox live, stamped, written, knownDamage_bytes, came]
    simp only [List.append_assoc]
    rfl

end Payloads

/-- What is sent for a payload that is read, of every kind: the place to the sender, the payload to
all others that are connected, if any are. Of the payload only the server's word is new: the player,
the latency, and the damage of the vehicle that the player sits in. -/
theorem take_traffic (r : Realm) (sender : Client) (own : r.clients.AtOwnEndpoints)
    (connected : sender.connected) (live : r.store.contains sender.player) :
    ∃ listed, r.clients.Audience sender.endpoint listed ∧ ∀ payload,
      (∀ packet : PlayerSync, Packet.read payload = .ok packet →
        (r.take .playerPureSync sender payload).2.outbox = r.outbox.following
          (toSender sender ((payload.drop 8).take 12 ++ [0]) ::
            toAll listed .playerPureSync
              (Layout.id.write sender.player ++ [0, 0] ++ payload.drop 6))) ∧
      (∀ packet : VehicleSync, Packet.read payload = .ok packet → ∃ body,
        payload.drop 6 = body ++ packet.damage.bytes ∧
        (r.take .vehiclePureSync sender payload).2.outbox = r.outbox.following
          (toSender sender ((payload.drop 11).take 12 ++ 1 :: (payload.drop 23).take 12) ::
            toAll listed .vehiclePureSync
              (Layout.id.write sender.player ++
                Layout.u16.write (.ofNat (min sender.latency.toNat 65535)) ++ body ++
                r.store.damageBytes sender.player))) ∧
      (∀ packet : KeySync, Packet.read payload = .ok packet →
        (r.take .playerKeySync sender payload).2.outbox = r.outbox.following
          (toAll listed .playerKeySync (Layout.id.write sender.player ++ payload.drop 4))) ∧
      (r.take .cameraSync sender payload).2.outbox = r.outbox ∧
      (r.take .command sender payload).2.outbox = r.outbox := by
  refine ⟨_, Clients.others_audience own sender.endpoint, fun payload => ?_⟩
  simp only [take, connected, not_true_eq_false, if_false]
  refine ⟨fun packet h => ?_, fun packet h => ?_, fun packet h => ?_, ?_, ?_⟩
  · exact takePlayer_outbox h r sender
  · exact takeVehicle_outbox h live
  · exact takeKeys_outbox h r sender
  · exact takeAs_silent (handleCamera_secluded sender) r payload
  · exact takeAs_silent (handleCommand_secluded sender) r payload

def wreck : Vehicle := { model := 411, damage := { Damage.none with lights := .replicate 4 1 } }

/-- Four clients, of whom one has gone and one sits in a car. -/
def company : Realm where
  world := (World.fresh Grid.defaultCellSize (.counter 1) ⟨0⟩).run
    [.store (.insert { kind := .vehicle wreck }),
      .store (.insert { kind := .player { endpoint := ⟨5⟩ } }),
      .store (.setDriver ⟨1⟩ (some ⟨2⟩))]
  clients := [(7, true), (5, true), (9, false), (3, true)].foldl (fun cs (endpoint, connected) =>
    (cs.enlist { endpoint := ⟨endpoint⟩, player := ⟨2⟩, connected }).2) {}

def motorist : Client := { endpoint := ⟨5⟩, player := ⟨2⟩, latency := 70000 }

def jaunt : VehicleSync := { player := ⟨9⟩, position := ⟨.one, .zero, .zero⟩ }

theorem company_traffic :
    let sent := (company.take .vehiclePureSync motorist (Packet.write jaunt)).2.outbox.sent
    ∃ listed body, company.clients.Audience ⟨5⟩ listed ∧
      sent = toSender motorist
          (Layout.vec3.write jaunt.position ++ 1 :: Layout.vec3.write jaunt.rotation) ::
        toAll listed .vehiclePureSync ([2, 0, 0, 0] ++ [255, 255] ++ body ++
          [6, 0, 0, 0, 0, 0, 0, 4, 0, 0, 0, 0, 7, 0, 0, 0, 0, 0, 0, 0, 4, 1, 1, 1, 1]) := by
  have own : company.clients.AtOwnEndpoints := by
    refine .enlist (.enlist (.enlist (.enlist ?_ _) _) _) _
    exact fun endpoint id found => nomatch found
  obtain ⟨listed, audience, sent⟩ :=
    take_traffic company motorist own rfl (by decide +kernel)
  obtain ⟨body, -, traffic⟩ := (sent (Packet.write jaunt)).2.1 jaunt (Packet.read_write jaunt)
  have dents : company.store.damageBytes ⟨2⟩ =
    [6, 0, 0, 0, 0, 0, 0, 4, 0, 0, 0, 0, 7, 0, 0, 0, 0, 0, 0, 0, 4, 1, 1, 1, 1] := by decide +kernel
  refine ⟨listed, body, audience, ?_⟩
  rw [traffic, ← dents]
  rfl

end Realm
end SharedWorld
