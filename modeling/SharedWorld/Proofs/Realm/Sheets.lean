import SharedWorld.Proofs.Realm.Frame
import SharedWorld.Proofs.World.Visits

/-! What a player on foot says about itself, and what becomes of it. As long as the player is tied to
nothing, only its own packets change it. -/
namespace SharedWorld

/-- What a packet on foot says of its sender and the server takes over, except for references. -/
structure Sheet where
  position : Vec3
  velocity : Vec3
  heading : Single
  health : Single
  armor : Single
  weapon : Weapon
  aimOrigin : Vec3
  aimDirection : Vec3
  cameraPosition : Vec3
  cameraDirection : Vec3
  cameraRotation : Single
  flags : PlayerFlags
deriving DecidableEq

namespace Sheet

/-- The sheet of an element that is a player in this state. -/
def of (e : Element) (p : Player) : Sheet where
  position := e.position
  velocity := e.velocity
  heading := e.rotation.z
  health := p.health
  armor := p.armor
  weapon := p.weapon
  aimOrigin := p.aimOrigin
  aimDirection := p.aimDirection
  cameraPosition := p.cameraPosition
  cameraDirection := p.cameraDirection
  cameraRotation := p.cameraRotation
  flags := p.flags

def initial (endpoint : Endpoint) : Sheet := .of { kind := .player { endpoint } } { endpoint }

end Sheet

def PlayerSync.sheet (packet : PlayerSync) : Sheet where
  position := packet.position
  velocity := packet.velocity
  heading := packet.rotation
  health := packet.health
  armor := packet.armor
  weapon := packet.weapon
  aimOrigin := packet.aimOrigin
  aimDirection := packet.aimDirection
  cameraPosition := packet.cameraPosition
  cameraDirection := packet.cameraDirection
  cameraRotation := packet.cameraRotation
  flags := packet.flags

def PlayerSync.read? (payload : List UInt8) : Option PlayerSync :=
  (Packet.read payload : Except Wire.DecodeError PlayerSync).toOption

/-- What the last of some payloads says that can be read, or else what was there before. -/
def Sheet.after (before : Sheet) (payloads : List (List UInt8)) : Sheet :=
  ((payloads.filterMap PlayerSync.read?).getLast?).elim before PlayerSync.sheet

theorem Sheet.after_append (before : Sheet) (payloads : List (List UInt8)) (payload : List UInt8) :
    before.after (payloads ++ [payload]) =
      (PlayerSync.read? payload).elim (before.after payloads) PlayerSync.sheet := by
  unfold after
  rw [List.filterMap_append]
  cases h : PlayerSync.read? payload <;> simp [h]

namespace Element

def sheet? (e : Element) : Option Sheet := e.player?.map (.of e)

theorem released_sheet? (e : Element) : e.released.sheet? = e.sheet? := by
  cases e with | mk kind => cases kind <;> rfl

theorem sheet?_isSome {e : Element} : e.sheet?.isSome ↔ e.type = .player := by
  cases e with | mk kind =>
  cases kind <;> simp [sheet?, player?, type, ElementKind.type]

theorem sheet?_onFoot {e : Element} (type : e.type = .player) (packet : PlayerSync)
    (contact : Option ElementId) :
    (Realm.onFootTransform packet (e.updatePlayer (Realm.onFootState packet contact))).sheet? =
      some packet.sheet := by
  cases e with | mk kind =>
  cases kind with
  | player p => rfl
  | _ => cases type

theorem sheet?_camera (e : Element) (camera : Camera) :
    (e.updatePlayer ({ · with camera })).sheet? = e.sheet? := by
  cases e with | mk kind => cases kind <;> rfl

end Element

namespace Store
variable {s t : Store} {p : ElementId}

def sheet? (s : Store) (a : ElementId) : Option Sheet := (s.find? a).bind (·.sheet?)

theorem sheet?_eq_released (s : Store) (a : ElementId) :
    s.sheet? a = (s.released? a).bind (·.sheet?) := by
  unfold sheet? released?
  cases s.find? a with
  | none => rfl
  | some e => exact e.released_sheet?.symm

theorem sheet?_congr (h : t.find? p = s.find? p) : t.sheet? p = s.sheet? p :=
  congrArg (Option.bind · Element.sheet?) h

theorem type?_eq_bonds (s : Store) (a : ElementId) : s.type? a = (s.bonds? a).map (·.type) := by
  unfold type? bonds?
  rw [Option.map_map]
  rfl

/-- A live player that is tied to nothing. -/
structure Loose (s : Store) (p : ElementId) : Prop where
  player : s.type? p = some .player
  untied : s.target? p = none

namespace Loose

theorem find (loose : s.Loose p) :
    ∃ e, s.find? p = some e ∧ e.type = .player ∧ e.target? = none := by
  obtain ⟨e, he, type⟩ := Option.map_eq_some_iff.mp loose.player
  refine ⟨e, he, type, ?_⟩
  simpa [target?, he] using loose.untied

theorem of_find (loose : s.Loose p) (same : t.find? p = s.find? p) : t.Loose p where
  player := by rw [type?, same]; exact loose.player
  untied := by rw [target?, same]; exact loose.untied

theorem of_bonds (loose : s.Loose p) (same : t.bonds? p = s.bonds? p) : t.Loose p := by
  have target (s : Store) :
      s.target? p = (s.bonds? p).bind fun b => b.attachment.map (·.target) := by
    unfold target? bonds?
    cases s.find? p <;> rfl
  refine ⟨?_, ?_⟩
  · rw [type?_eq_bonds, same, ← type?_eq_bonds]
    exact loose.player
  · rw [target, same, ← target]
    exact loose.untied

theorem not_carried (loose : s.Loose p) (top : ElementId) : ¬ s.Carries top p := by
  intro carried
  obtain ⟨c, there, _⟩ := carried.cases
  cases loose.untied.symm.trans there

theorem not_hitched (loose : s.Loose p) (a : ElementId) : ¬ s.Hitched p a := by
  obtain ⟨e, he, type, _⟩ := loose.find
  have holds {tie : Tie} (held : tie.heldBy = some .vehicle) : ¬ s.Refers tie p a := by
    intro refers
    have vehicle := Element.type_of_refers ((refers_of_find? he).mp refers)
    simp [held, type] at vehicle
  exact fun hitched => hitched.elim (holds rfl) (holds rfl)

end Loose

instance (s : Store) (p : ElementId) : Decidable (s.Loose p) :=
  decidable_of_iff (s.type? p = some .player ∧ s.target? p = none)
    ⟨fun h => ⟨h.1, h.2⟩, fun h => ⟨h.player, h.untied⟩⟩

theorem Removals.sheet? (h : Removals s t) (live : t.contains p) : t.sheet? p = s.sheet? p := by
  rw [sheet?_eq_released, sheet?_eq_released, h.released? live]

/-- What counts of an element here. -/
def outline (e : Element) : ElementType × Option ElementId × Option Sheet :=
  (e.type, e.target?, e.sheet?)

def outline? (s : Store) (a : ElementId) : Option (ElementType × Option ElementId × Option Sheet) :=
  (s.find? a).map outline

theorem outline?_eq_some {sheet : Sheet} :
    s.outline? p = some (.player, none, some sheet) ↔ s.Loose p ∧ s.sheet? p = some sheet := by
  have loose : s.Loose p ↔ s.type? p = some .player ∧ s.target? p = none :=
    ⟨fun h => ⟨h.player, h.untied⟩, fun h => ⟨h.1, h.2⟩⟩
  unfold outline? outline sheet?
  rw [loose, type?, target?]
  cases s.find? p with
  | none => simp
  | some e => simp [and_assoc]

theorem Loose.sheet (loose : s.Loose p) : ∃ sheet, s.sheet? p = some sheet := by
  obtain ⟨e, he, type, _⟩ := loose.find
  obtain ⟨sheet, said⟩ := Option.isSome_iff_exists.mp (Element.sheet?_isSome.mpr type)
  exact ⟨sheet, by rw [sheet?, he]; exact said⟩

theorem Loose.insert {e : Element} {id : ElementId} (loose : s.Loose p)
    (h : s.insert e = (.ok id, t)) : p ≠ id ∧ t.Loose p ∧ t.sheet? p = s.sheet? p := by
  obtain ⟨free, seen⟩ := insert_view (f := outline) (fun _ _ => by rfl) h
  obtain ⟨held, there, _⟩ := loose.find
  have other : p ≠ id := fun here => free (here ▸ contains_iff.mpr ⟨held, there⟩)
  obtain ⟨sheet, said⟩ := loose.sheet
  have same : t.outline? p = s.outline? p := (seen p).trans (if_neg other)
  rw [outline?_eq_some.mpr ⟨loose, said⟩, outline?_eq_some] at same
  exact ⟨other, same.1, same.2.trans said.symm⟩

theorem insert_player {endpoint : Endpoint} {id : ElementId}
    (h : s.insert { kind := .player { endpoint } } = (.ok id, t)) :
    t.Loose id ∧ t.sheet? id = some (.initial endpoint) :=
  outline?_eq_some.mp (((insert_view (f := outline) (fun _ _ => by rfl) h).2 id).trans
    (if_pos rfl))

end Store

open Store

namespace Realm
variable {r : Realm} {sender : Client} {p : ElementId}

theorem type?_of_hitched {previous a : ElementId} {links : List TrailerLink} {s : Store}
    (h : a ∈ hitched previous links s) : s.type? a = some .vehicle := by
  induction links generalizing previous s with
  | nil => cases h
  | cons link links ih =>
    unfold hitched at h
    split at h
    · next t hl =>
      have trailer : s.type? link.trailer = some .vehicle := by
        unfold hitchLink at hl
        split at hl
        · cases hl
        · next vehicle => exact not_not.mp vehicle
      rcases List.mem_cons.mp h with rfl | later
      · exact trailer
      · rw [type?_eq_bonds, ← hitchLink_bonds hl, ← type?_eq_bonds]
        exact ih later
    · cases h

theorem type?_of_driven {packet : VehicleSync} {a : ElementId} (h : a ∈ r.driven sender packet) :
    r.store.type? a = some .vehicle := by
  by_cases drives : ∃ vehicle, r.store.Drives sender.player vehicle
  · obtain ⟨vehicle, drives⟩ := drives
    rw [driven_of_drives drives, List.mem_cons] at h
    rcases h with rfl | later
    · obtain ⟨e, he, refers⟩ := drives.2
      simpa [type?, he, Tie.heldBy, eq_comm] using Element.type_of_refers refers
    · have seated := seated_quiet r sender packet
      have moved : Quiet (r.seated sender packet) ((r.seated sender packet).after
          ((r.seated sender packet).updateVehicle vehicle (drivenState packet)
            (drivenTransform packet))) :=
        after_cases (Quiet.refl _) fun t ht =>
          update_rewired (updateVehicle_update ht) (modify_quiet (driven_tame packet) _ vehicle)
      have still := (seated.trans moved).trans (propagate_quiet _ vehicle)
      rw [← still.type?]
      exact type?_of_hitched later
  · rw [driven_of_idle fun vehicle here => drives ⟨vehicle, here⟩] at h
    cases h

/-- A payload changes elements only as a packet on foot, in a vehicle or on the camera. -/
theorem take_store_cases (kind : PacketKind) (r : Realm) (sender : Client) (payload : List UInt8) :
    let t := (r.take kind sender payload).2.store
    t = r.store ∨
      (kind = .playerPureSync ∧ ∃ packet, t = (r.handlePlayer sender packet).2.store) ∨
      (kind = .vehiclePureSync ∧ ∃ packet, t = (r.handleVehicle sender packet).2.store) ∨
      (kind = .cameraSync ∧ ∃ packet, t = (r.handleCamera sender packet).2.store) := by
  intro t
  unfold t take
  split
  · exact .inl rfl
  split
  · rcases takeAs_cases handlePlayer r sender payload with ⟨_, h⟩ | ⟨packet, _, h⟩
    · exact .inl (congrArg store h)
    · exact .inr (.inl ⟨rfl, packet, congrArg store h⟩)
  · rcases takeAs_cases handleVehicle r sender payload with ⟨_, h⟩ | ⟨packet, _, h⟩
    · exact .inl (congrArg store h)
    · exact .inr (.inr (.inl ⟨rfl, packet, congrArg store h⟩))
  · exact .inl (takeAs_lifts (R := fun r u => u.store = r.store) (fun _ => rfl)
      (fun _ _ _ => rfl) r sender payload)
  · rcases takeAs_cases handleCamera r sender payload with ⟨_, h⟩ | ⟨packet, _, h⟩
    · exact .inl (congrArg store h)
    · exact .inr (.inr (.inr ⟨rfl, packet, congrArg store h⟩))
  · exact .inl (takeAs_lifts (R := fun r u => u.store = r.store) (fun _ => rfl)
      handleCommand_store r sender payload)
  · exact .inl rfl

theorem take_find?_other (ok : r.store.Linked) (free : r.store.Untangled) (loose : r.store.Loose p)
    (other : sender.player ≠ p) (kind : PacketKind) (payload : List UInt8) :
    (r.take kind sender payload).2.store.find? p = r.store.find? p := by
  rcases take_store_cases kind r sender payload with
    h | ⟨_, packet, h⟩ | ⟨_, packet, h⟩ | ⟨_, packet, h⟩ <;> rw [h]
  · refine (handlePlayer_frame ok free sender packet).find? ?_ ?_ nofun
    · simpa using other.symm
    · exact fun x _ => loose.not_carried x
  · have idle : p ∉ r.driven sender packet := fun driven => by
      cases loose.player.symm.trans (type?_of_driven driven)
    refine (handleVehicle_frame ok free sender packet).find? ?_ ?_ ?_
    · simpa using ⟨other.symm, idle⟩
    · exact fun x _ => loose.not_carried x
    · exact fun x _ => loose.not_hitched x
  · obtain ⟨camera, find⟩ := handleCamera_find? r sender packet
    rw [find, if_neg other.symm]

theorem updatePlayer_granted {s : Store} {e : Element} (he : s.find? p = some e)
    (type : e.type = .player) (state : Player → Player) (transform : Element → Element) :
    ∃ t, s.updatePlayer p state transform = .ok t := by
  have found : ∃ state, s.player p = .ok state := by
    cases hk : e.kind with
    | player state => exact ⟨state, player_eq_ok.mpr ⟨e, he, hk⟩⟩
    | _ => simp [Element.type, hk, ElementKind.type] at type
  obtain ⟨now, found⟩ := found
  unfold Store.updatePlayer
  rw [found]
  show ∃ t, s.update p _ = .ok t
  unfold update
  rw [he]
  dsimp only
  split <;> exact ⟨_, rfl⟩

theorem handlePlayer_sheet? (ok : r.store.Linked) (free : r.store.Untangled)
    (loose : r.store.Loose sender.player) (packet : PlayerSync) :
    (r.handlePlayer sender packet).2.store.sheet? sender.player = some packet.sheet := by
  obtain ⟨e, he, type, _⟩ := loose.find
  obtain ⟨written, hw⟩ := updatePlayer_granted he type
    (onFootState packet (r.store.resolve packet.contact)) (onFootTransform packet)
  have hu := updatePlayer_update hw
  have quiet : Quiet r.store written :=
    update_rewired hu (modify_quiet (onFoot_tame packet _) r.store sender.player)
  have linked : written.Linked := ok.of_quiet quiet
  have up : Grounded written.target? sender.player :=
    funext quiet.target? ▸ free .target (.inl rfl) sender.player
  have live : written.contains sender.player := (quiet.contains _).mpr (contains_iff.mpr ⟨e, he⟩)
  have placed := propagate_propagated linked up live
  have moved : (r.handlePlayer sender packet).2.store = (written.propagate sender.player).2 := by
    rw [handlePlayer_store, hw]
    rfl
  rw [moved, sheet?_congr (placed.elsewhere _ (Carries.irrefl up)), Store.sheet?, find?_update hu,
    if_pos rfl, he]
  exact Element.sheet?_onFoot type packet _

theorem handleCamera_sheet? (r : Realm) (sender : Client) (packet : CameraSync) (a : ElementId) :
    (r.handleCamera sender packet).2.store.sheet? a = r.store.sheet? a := by
  obtain ⟨camera, find⟩ := handleCamera_find? r sender packet
  unfold Store.sheet?
  rw [find]
  split
  · cases r.store.find? a with
    | none => rfl
    | some e => exact e.sheet?_camera camera
  · rfl

/-- Of what a client sends apart from packets in a vehicle, a packet on foot that can be read puts
down the sheet anew; nothing else changes it. -/
theorem take_sheet?_own (ok : r.store.Linked) (free : r.store.Untangled)
    (loose : r.store.Loose sender.player) (connected : sender.connected) {kind : PacketKind}
    (onFoot : kind ≠ .vehiclePureSync) (payload : List UInt8) :
    (r.take kind sender payload).2.store.sheet? sender.player =
      if kind = .playerPureSync then
        (PlayerSync.read? payload).elim (r.store.sheet? sender.player) (some ·.sheet)
      else r.store.sheet? sender.player := by
  by_cases here : kind = .playerPureSync
  · subst here
    rw [if_pos rfl, take, if_neg fun gone => gone connected]
    unfold PlayerSync.read?
    rcases takeAs_cases handlePlayer r sender payload with ⟨unread, h⟩ | ⟨packet, read, h⟩
    · rw [unread, h]
      rfl
    · rw [read, h, handlePlayer_sheet? ok free loose]
      rfl
  · rw [if_neg here]
    rcases take_store_cases kind r sender payload with
      h | ⟨there, _⟩ | ⟨there, _⟩ | ⟨_, packet, h⟩
    · rw [h]
    · exact absurd there here
    · exact absurd there onFoot
    · rw [h, handleCamera_sheet?]

end Realm
end SharedWorld
