import SharedWorld.Proofs.Realm.Followers
import SharedWorld.Proofs.Realm.Handlers
import SharedWorld.Proofs.Store.Frame

/-! What a packet may change. A player speaks for itself, and the driver of a vehicle for the
vehicle and for the trailers that it places; the rest of the elements are at most moved along, or
lose a tow pair with one of these. -/
namespace SharedWorld
open Store

/-- A player sits in a vehicle and drives it. -/
def Store.Drives (s : Store) (player vehicle : ElementId) : Prop :=
  s.Refers .seat player vehicle ∧ s.Refers .driver vehicle player

/-- Those in `own` were written to first, and then those in `written`, each with what hangs on it. -/
theorem Store.Frame.steered {s t u : Store} {own written : List ElementId}
    (first : Frame s t own [] []) (quiet : Quiet s t) (steered : Steered t written u)
    (spared : Sparing t written u) (bonds : ∀ a, u.bonds? a = t.bonds? a) :
    Frame s u (own ++ written) written written := by
  have apart {a} (ha : a ∉ own ++ written) : a ∉ own ∧ a ∉ written := by
    simpa only [List.mem_append, not_or] using ha
  refine ⟨fun a => (bonds a).trans (first.bonds a), fun a ha => ?_, fun a ha standing => ?_,
    fun a ha free tie tow => ?_⟩
  · exact (spared.rest a (apart ha).2).trans (first.rest a (apart ha).1)
  · refine (steered.elsewhere a (apart ha).2 fun x hx below => ?_).trans
      (first.stance a (apart ha).1 nofun)
    exact standing x hx ((carries_congr quiet.target? a).mp below)
  · refine (spared.reference? (apart ha).2 (fun x hx hitched => ?_) tow).trans
      (first.tow a (apart ha).1 nofun tie tow)
    exact free x hx (hitched.imp (quiet.refers ..).mp (quiet.refers ..).mp)

namespace Element

theorem bonds_updatePlayer {g : Player → Player}
    (same : ∀ p, (g p).vehicle = p.vehicle ∧ (g p).endpoint = p.endpoint) (e : Element) :
    (e.updatePlayer g).bonds = e.bonds := by
  cases e with | mk kind =>
  cases kind with
  | player p => simp [updatePlayer, bonds, player?, type, ElementKind.type, vehicle?, same p]
  | _ => rfl

theorem bonds_updateVehicle {g : Vehicle → Vehicle} (same : ∀ v, (g v).driver = v.driver)
    (e : Element) : (e.updateVehicle g).bonds = e.bonds := by
  cases e with | mk kind =>
  cases kind with
  | vehicle v => simp [updateVehicle, bonds, player?, type, ElementKind.type, vehicle?, same v]
  | _ => rfl

end Element

namespace Realm
variable {r : Realm} {s t : Store} {sender : Client}

theorem onFoot_bonds (packet : PlayerSync) (contact : Option ElementId) (e : Element) :
    (onFootTransform packet (e.updatePlayer (onFootState packet contact))).bonds = e.bonds :=
  Element.bonds_updatePlayer (g := onFootState packet contact) (fun _ => ⟨rfl, rfl⟩) e

theorem seated_bonds (packet : VehicleSync) (e : Element) :
    (seatedTransform packet (e.updatePlayer (seatedState packet))).bonds = e.bonds :=
  Element.bonds_updatePlayer (g := seatedState packet) (fun _ => ⟨rfl, rfl⟩) e

theorem driven_bonds (packet : VehicleSync) (e : Element) :
    (drivenTransform packet (e.updateVehicle (drivenState packet))).bonds = e.bonds :=
  Element.bonds_updateVehicle (g := drivenState packet) (fun _ => rfl) e

theorem link_bonds (link : TrailerLink) (e : Element) :
    ({ e with position := link.position, rotation := link.rotation } : Element).bonds =
      e.bonds := rfl

theorem hitchLink_bonds {previous : ElementId} {link : TrailerLink}
    (h : hitchLink previous link s = .ok (some t)) (a : ElementId) : t.bonds? a = s.bonds? a := by
  obtain ⟨changed, pulled, placed, tow, move, rfl⟩ := hitchLink_moves h
  rw [bonds?_of_rest? (propagate_rest placed link.trailer a), update_bonds (link_bonds link) move,
    bonds?_of_rest? (attachToTower_rest tow a)]

theorem hitch_bonds {previous : ElementId} {links : List TrailerLink}
    (h : hitch previous links s = .ok t) (a : ElementId) : t.bonds? a = s.bonds? a := by
  induction links generalizing previous s with
  | nil =>
    cases h
    rfl
  | cons link links ih =>
    rw [hitch_cons] at h
    split at h
    · cases h
    · cases h
      rfl
    · next hl => rw [ih h, hitchLink_bonds hl]

theorem syncTrailers_bonds {vehicle : ElementId} {links : List TrailerLink}
    (h : syncTrailers s vehicle links = .ok t) (a : ElementId) : t.bonds? a = s.bonds? a := by
  unfold syncTrailers at h
  split at h
  · obtain ⟨x, hx, h⟩ := map_eq_ok.mp h
    cases h
    rcases detachTowed_cases hx with same | ⟨trailer, changed, tow⟩
    · rw [same]
    · exact bonds?_of_rest? (attachToTower_rest tow a)
  · exact hitch_bonds h a

theorem drive_bonds {vehicle : ElementId} {packet : VehicleSync}
    (h : drive s vehicle packet = .ok t) (a : ElementId) : t.bonds? a = s.bonds? a := by
  obtain ⟨written, hw, h⟩ := bind_eq_ok.mp h
  rw [syncTrailers_bonds h, bonds?_of_rest? (propagate_rest written vehicle a),
    update_bonds (driven_bonds packet) (updateVehicle_update hw)]

theorem seat_eq_some {vehicle : ElementId} :
    r.seat sender = some vehicle ↔ r.store.Refers .seat sender.player vehicle := by
  have held (e : Element) : (e.player?.bind fun p => p.vehicle) = e.reference? .seat := by
    cases e with | mk kind => cases kind <;> rfl
  rw [← reference?_eq_some (by decide), seat, Store.reference?]
  simp only [held]

theorem driver_eq_some {player vehicle : ElementId} :
    (s.vehicle vehicle).toOption.bind (·.driver) = some player ↔
      s.Refers .driver vehicle player := by
  cases h : s.vehicle vehicle with
  | ok v =>
    have refers : s.Refers .driver vehicle player ↔ v.driver = some player :=
      refers_of_vehicle h rfl player
    exact refers.symm
  | error e =>
    refine iff_of_false nofun fun refers => ?_
    obtain ⟨v, hv⟩ := vehicle_of_canHold rfl refers.canHold
    rw [h] at hv
    cases hv

theorem seated_cases (r : Realm) (sender : Client) (packet : VehicleSync) :
    r.seated sender packet = r.store ∨
      r.store.update sender.player (fun e => seatedTransform packet
        (e.updatePlayer (seatedState packet))) = .ok (r.seated sender packet) := by
  unfold seated
  cases h : r.store.updatePlayer sender.player (seatedState packet) (seatedTransform packet) with
  | error e => exact .inl rfl
  | ok t => exact .inr (updatePlayer_update h)

theorem seated_quiet (r : Realm) (sender : Client) (packet : VehicleSync) :
    Quiet r.store (r.seated sender packet) := by
  rcases seated_cases r sender packet with h | h
  · rw [h]
    exact Quiet.refl r.store
  · exact update_rewired h (modify_quiet (seated_tame packet) r.store sender.player)

theorem seated_drives (r : Realm) (sender : Client) (packet : VehicleSync) (vehicle : ElementId) :
    (r.seat sender = some vehicle ∧ ((r.seated sender packet).vehicle vehicle).toOption.bind
      (·.driver) = some sender.player) ↔ r.store.Drives sender.player vehicle := by
  rw [seat_eq_some, driver_eq_some, (seated_quiet r sender packet).refers]
  exact Iff.rfl

theorem handleVehicle_store (r : Realm) (sender : Client) (packet : VehicleSync) :
    (r.handleVehicle sender packet).2.store = r.seated sender packet ∨
      ∃ vehicle, r.store.Drives sender.player vehicle ∧
        drive (r.seated sender packet) vehicle packet =
          .ok (r.handleVehicle sender packet).2.store := by
  simp only [← seated_drives r sender packet]
  unfold handleVehicle
  dsimp only
  split
  · next gone =>
    refine .inl ?_
    have refused : r.store.player sender.player = .error (.notFound sender.player) := by
      unfold Store.player
      rw [gone]
    unfold seated Store.updatePlayer
    rw [refused]
    rfl
  next e he =>
  have seat : r.seat sender = e.player?.bind (·.vehicle) := by rw [Realm.seat, he]; rfl
  split
  · next refused =>
    have refused : r.store.updatePlayer _ _ _ = _ := refused
    refine .inl ?_
    unfold seated
    rw [refused]
    rfl
  next written hw =>
  have hw : r.store.updatePlayer _ _ _ = _ := hw
  have spoken : r.seated sender packet = written := by rw [seated, hw]; rfl
  rw [spoken, seat]
  split
  · next none =>
    rw [reportHit_store]
    exact .inl rfl
  next vehicle hv =>
  rw [reportHit_store, withStore_store]
  split
  · rw [reportHit_store]
    exact .inl rfl
  next drives =>
  split
  · rw [reportHit_store]
    exact .inl rfl
  · next moved hd => exact .inr ⟨vehicle, ⟨hv, not_not.mp drives⟩, hd⟩

theorem hitched_eq_take (previous : ElementId) (links : List TrailerLink) (s : Store) :
    ∃ n, hitched previous links s = (links.take n).map (·.trailer) := by
  induction links generalizing previous s with
  | nil => exact ⟨0, rfl⟩
  | cons link links ih =>
    unfold hitched
    split
    · next t _ =>
      obtain ⟨n, hn⟩ := ih link.trailer t
      exact ⟨n + 1, by rw [hn]; rfl⟩
    · exact ⟨0, rfl⟩

theorem driven_of_drives {vehicle : ElementId} (h : r.store.Drives sender.player vehicle)
    (packet : VehicleSync) :
    let s := r.seated sender packet
    let moved := s.after (s.updateVehicle vehicle (drivenState packet) (drivenTransform packet))
    r.driven sender packet =
      vehicle :: hitched vehicle packet.trailers (moved.propagate vehicle).2 := by
  obtain ⟨seat, drives⟩ := (seated_drives r sender packet vehicle).mpr h
  unfold driven
  rw [show (r.store.find? sender.player).bind _ = _ from seat]
  exact if_neg (not_not.mpr drives)

theorem driven_of_idle (idle : ∀ vehicle, ¬ r.store.Drives sender.player vehicle)
    (packet : VehicleSync) : r.driven sender packet = [] := by
  unfold driven
  cases seat : (r.store.find? sender.player).bind fun e => e.player?.bind (·.vehicle) with
  | none => rfl
  | some vehicle =>
    refine if_pos fun drives => idle vehicle ?_
    exact (seated_drives r sender packet vehicle).mp ⟨seat, drives⟩

section Sparing
variable {s₀ : Store} {written : List ElementId}

theorem hitchLink_sparing (h : Sparing s₀ written s) {previous : ElementId} {link : TrailerLink}
    (hp : previous ∈ written) (hl : hitchLink previous link s = .ok (some t)) :
    Sparing s₀ (written ++ [link.trailer]) t := by
  obtain ⟨changed, pulled, placed, tow, move, rfl⟩ := hitchLink_moves hl
  exact (h.hitch hp tow).write (by simp) (link_tame link) move

theorem hitch_sparing (h : Sparing s₀ written s) {previous : ElementId} {links : List TrailerLink}
    (hp : previous ∈ written) (ht : hitch previous links s = .ok t) :
    Sparing s₀ (written ++ hitched previous links s) t := by
  induction links generalizing previous s written with
  | nil =>
    cases ht
    simpa [hitched] using h
  | cons link links ih =>
    rw [hitch_cons] at ht
    unfold hitched
    split at ht
    · cases ht
    · next hl =>
      cases ht
      rw [hl]
      simpa using h
    · next hl =>
      rw [hl]
      simpa using ih (hitchLink_sparing h hp hl) (by simp) ht

theorem syncTrailers_sparing (h : Sparing s₀ written s) {vehicle : ElementId}
    {links : List TrailerLink} (hv : vehicle ∈ written)
    (ht : syncTrailers s vehicle links = .ok t) :
    Sparing s₀ (written ++ hitched vehicle links s) t := by
  unfold syncTrailers at ht
  split at ht
  · next none =>
    rw [List.isEmpty_iff.mp none]
    obtain ⟨x, hx, ht⟩ := map_eq_ok.mp ht
    cases ht
    simpa [hitched] using h.unhitch hv hx
  · exact hitch_sparing h hv ht

theorem drive_sparing (ok : s₀.Linked) {vehicle : ElementId} {packet : VehicleSync}
    (h : drive s₀ vehicle packet = .ok t) :
    let moved := s₀.after (s₀.updateVehicle vehicle (drivenState packet) (drivenTransform packet))
    Sparing s₀ (vehicle :: hitched vehicle packet.trailers (moved.propagate vehicle).2) t := by
  obtain ⟨written, hw, h⟩ := bind_eq_ok.mp h
  rw [hw]
  have own : vehicle ∈ [vehicle] := List.mem_singleton_self vehicle
  have begun : Sparing s₀ [vehicle] s₀ := (Sparing.refl ok).mono (List.nil_subset _)
  exact syncTrailers_sparing (begun.write own (driven_tame packet) (updateVehicle_update hw)) own h

end Sparing

theorem handlePlayer_store (r : Realm) (sender : Client) (packet : PlayerSync) :
    (r.handlePlayer sender packet).2.store = r.store.after
      ((fun t => (t.propagate sender.player).2) <$> r.store.updatePlayer sender.player
        (onFootState packet (r.store.resolve packet.contact)) (onFootTransform packet)) := by
  have told : (r.tellOnFoot sender packet).store = r.store := rfl
  rw [handlePlayer_eq, walkOn, told]
  cases r.store.updatePlayer sender.player _ (onFootTransform packet) with
  | error e => rfl
  | ok t => exact reportHit_store ..

theorem handleCamera_store (r : Realm) (sender : Client) (packet : CameraSync) :
    (r.handleCamera sender packet).2.store = r.store.after (r.store.updatePlayer sender.player
      ({ · with camera := shownCamera r.store packet }) (fun e => e)) := by
  unfold handleCamera
  extract_lets camera
  split <;> next answered => exact (congrArg r.store.after answered).symm

/-- A packet on foot is refused and changes nothing, or what hangs on the player follows it. -/
theorem handlePlayer_moves (r : Realm) (sender : Client) (packet : PlayerSync) :
    (r.handlePlayer sender packet).2.store = r.store ∨
      ∃ written, r.store.update sender.player (fun e => onFootTransform packet
          (e.updatePlayer (onFootState packet (r.store.resolve packet.contact)))) = .ok written ∧
        (r.handlePlayer sender packet).2.store = (written.propagate sender.player).2 := by
  rw [handlePlayer_store]
  cases hw : r.store.updatePlayer sender.player _ (onFootTransform packet) with
  | error e => exact .inl rfl
  | ok written => exact .inr ⟨written, updatePlayer_update hw, rfl⟩

theorem handlePlayer_bonds (r : Realm) (sender : Client) (packet : PlayerSync) (a : ElementId) :
    (r.handlePlayer sender packet).2.store.bonds? a = r.store.bonds? a := by
  rcases handlePlayer_moves r sender packet with same | ⟨written, hw, h⟩
  · rw [same]
  · rw [h, bonds?_of_rest? (propagate_rest written sender.player a),
      update_bonds (onFoot_bonds packet _) hw]

theorem handlePlayer_frame (ok : r.store.Linked) (free : r.store.Untangled) (sender : Client)
    (packet : PlayerSync) :
    Frame r.store (r.handlePlayer sender packet).2.store [sender.player] [sender.player] [] := by
  rcases handlePlayer_moves r sender packet with same | ⟨written, hu, moved⟩
  · rw [same]
    exact .refl r.store _ _ _
  have bonds := handlePlayer_bonds r sender packet
  rw [moved] at bonds ⊢
  have steered := (Steered.refl r.store).write ok free (onFoot_tame packet _) hu
  have spared := ((Sparing.refl ok).mono (List.nil_subset [sender.player])).write
    (List.mem_singleton_self sender.player) (onFoot_tame packet _) hu
  have edited : Quiet r.store written :=
    update_rewired hu (modify_quiet (onFoot_tame packet _) r.store sender.player)
  have quiet := edited.trans (propagate_quiet written sender.player)
  refine ⟨bonds, spared.rest, steered.elsewhere, fun a _ _ tie tow => quiet.reference? ?_ a⟩
  rcases tow with rfl | rfl <;> decide

theorem handleVehicle_frame (ok : r.store.Linked) (free : r.store.Untangled) (sender : Client)
    (packet : VehicleSync) :
    Frame r.store (r.handleVehicle sender packet).2.store
      (sender.player :: r.driven sender packet) (r.driven sender packet)
      (r.driven sender packet) := by
  have quiet := seated_quiet r sender packet
  have linked : (r.seated sender packet).Linked := ok.of_quiet quiet
  have untangled : (r.seated sender packet).Untangled := free.of_quiet quiet
  have spoken {own moved towed} (hp : sender.player ∈ own) :
      Frame r.store (r.seated sender packet) own moved towed := by
    rcases seated_cases r sender packet with h | h
    · rw [h]
      exact .refl r.store _ _ _
    · exact .of_update (seated_bonds packet) h hp
  rcases handleVehicle_store r sender packet with h | ⟨vehicle, drives, h⟩
  · rw [h]
    exact spoken List.mem_cons_self
  · rw [driven_of_drives drives]
    exact (spoken (List.mem_singleton_self sender.player)).steered quiet
      (drive_steered linked untangled h) (drive_sparing linked h) (drive_bonds h)

theorem updatePlayer_refused {id : ElementId} {state : Player → Player}
    {transform : Element → Element} {cause : WorldError}
    (h : s.updatePlayer id state transform = .error cause) {e : Element} (he : s.find? id = some e) :
    e.updatePlayer state = e := by
  cases hk : e.kind with
  | player p =>
    have found : s.player id = .ok p := player_eq_ok.mpr ⟨e, he, hk⟩
    unfold Store.updatePlayer at h
    rw [found] at h
    have h : s.update id (fun e => transform (e.updatePlayer state)) = .error cause := h
    unfold update at h
    rw [he] at h
    dsimp only at h
    split at h <;> cases h
  | _ =>
    unfold Element.updatePlayer
    rw [hk]

theorem handleCamera_find? (r : Realm) (sender : Client) (packet : CameraSync) : ∃ camera, ∀ a,
    (r.handleCamera sender packet).2.store.find? a =
      if a = sender.player then (r.store.find? a).map (·.updatePlayer ({ · with camera }))
      else r.store.find? a := by
  refine ⟨shownCamera r.store packet, fun a => ?_⟩
  rw [handleCamera_store]
  cases hw : r.store.updatePlayer sender.player _ (fun e => e) with
  | ok written => exact find?_update (updatePlayer_update hw) a
  | error cause =>
    by_cases here : a = sender.player
    · rw [if_pos here, here]
      cases he : r.store.find? sender.player with
      | none => exact he
      | some e => exact he.trans (congrArg some (updatePlayer_refused hw he).symm)
    · exact (if_neg here).symm

theorem handleVehicle_bonds (r : Realm) (sender : Client) (packet : VehicleSync) (a : ElementId) :
    (r.handleVehicle sender packet).2.store.bonds? a = r.store.bonds? a := by
  have spoken : (r.seated sender packet).bonds? a = r.store.bonds? a := by
    rcases seated_cases r sender packet with h | h
    · rw [h]
    · exact update_bonds (seated_bonds packet) h a
  rcases handleVehicle_store r sender packet with h | ⟨vehicle, _, h⟩
  · rw [h, spoken]
  · rw [drive_bonds h, spoken]

theorem handleCamera_bonds (r : Realm) (sender : Client) (packet : CameraSync) (a : ElementId) :
    (r.handleCamera sender packet).2.store.bonds? a = r.store.bonds? a := by
  obtain ⟨camera, find⟩ := handleCamera_find? r sender packet
  unfold bonds?
  rw [find]
  split
  · have kept := Element.bonds_updatePlayer (g := ({ · with camera })) fun _ => ⟨rfl, rfl⟩
    simp only [Option.map_map, Function.comp_def, kept]
  · rfl

/-- No payload ties or cuts a bond, puts an element into the world or takes one out. -/
theorem take_bonds (kind : PacketKind) (r : Realm) (sender : Client) (payload : List UInt8)
    (a : ElementId) : (r.take kind sender payload).2.store.bonds? a = r.store.bonds? a := by
  refine take_lifts (R := fun r u => ∀ a, u.store.bonds? a = r.store.bonds? a) (fun _ _ => rfl)
    handlePlayer_bonds handleVehicle_bonds (fun _ _ _ _ => rfl) handleCamera_bonds
    (fun r sender packet a => ?_) kind r sender payload a
  rw [handleCommand_store]

/-- What every kind of packet may change, in every state. None changes what ties elements together,
apart from tow pairs, and no element comes or goes. Controls and commands change no element, and a
packet on the camera the camera of the player. On foot the player is written to, and what hangs on it
moves along. In a vehicle the player alone is written to, unless it drives the vehicle: then also the
vehicle and the trailers that are placed, what hangs on these moves along, and those that were
hitched to one of these may be unhitched. -/
theorem run_frames (cellSize : Single) (ids : IdSource) (root : ElementId) (ops : List Op)
    (sender : Client) :
    let r := (fresh cellSize ids root).run ops
    (∀ kind payload a, (r.take kind sender payload).2.store.bonds? a = r.store.bonds? a) ∧
    (∀ packet, (r.handleKeys sender packet).2.store = r.store) ∧
    (∀ packet, (r.handleCommand sender packet).2.store = r.store) ∧
    (∀ packet, ∃ camera, ∀ a, (r.handleCamera sender packet).2.store.find? a =
      if a = sender.player then (r.store.find? a).map (·.updatePlayer ({ · with camera }))
      else r.store.find? a) ∧
    (∀ packet, Frame r.store (r.handlePlayer sender packet).2.store
      [sender.player] [sender.player] []) ∧
    ∀ packet,
      ((∀ v, ¬ r.store.Drives sender.player v) →
        Frame r.store (r.handleVehicle sender packet).2.store [sender.player] [] []) ∧
      ∀ v, r.store.Drives sender.player v →
        ∃ n, r.driven sender packet = v :: (packet.trailers.take n).map (·.trailer) ∧
          Frame r.store (r.handleVehicle sender packet).2.store
            (sender.player :: r.driven sender packet) (r.driven sender packet)
            (r.driven sender packet) := by
  intro r
  have ok : r.store.Linked := run_linked cellSize ids root ops
  have free : r.store.Untangled := run_untangled cellSize ids root ops
  refine ⟨fun kind => take_bonds kind r sender, fun packet => rfl, handleCommand_store r sender,
    handleCamera_find? r sender, handlePlayer_frame ok free sender,
    fun packet => ⟨fun idle => ?_, fun v drives => ?_⟩⟩
  · have frame := handleVehicle_frame ok free sender packet
    rwa [driven_of_idle idle] at frame
  · obtain ⟨n, placed⟩ := hitched_eq_take v packet.trailers _
    refine ⟨n, ?_, handleVehicle_frame ok free sender packet⟩
    rw [driven_of_drives drives, placed]

def roadside : List Op :=
  [.world (.store (.insert { kind := .vehicle { model := 411 } })),
    .world (.store (.insert { kind := .player { endpoint := ⟨1⟩ } })),
    .world (.store (.insert { kind := .player { endpoint := ⟨2⟩ } })),
    .world (.store (.insert { kind := .vehicle { model := 606 } })),
    .world (.store (.setDriver ⟨1⟩ (some ⟨2⟩))),
    .world (.store (.seatPassenger ⟨1⟩ ⟨3⟩))]

def haul : VehicleSync := { trailers := [⟨⟨4⟩, .zero, .zero⟩] }

theorem roadside_frames :
    let r := (fresh Grid.defaultCellSize (.counter 1) ⟨0⟩).run roadside
    Frame r.store (r.handleVehicle { endpoint := ⟨1⟩, player := ⟨2⟩ } haul).2.store
        [⟨2⟩, ⟨1⟩, ⟨4⟩] [⟨1⟩, ⟨4⟩] [⟨1⟩, ⟨4⟩] ∧
      Frame r.store (r.handleVehicle { endpoint := ⟨2⟩, player := ⟨3⟩ } haul).2.store
        [⟨3⟩] [] [] := by
  intro r
  have frames := run_frames Grid.defaultCellSize (.counter 1) ⟨0⟩ roadside
  constructor
  · have drives : r.store.Drives ⟨2⟩ ⟨1⟩ :=
      (seated_drives r { endpoint := ⟨1⟩, player := ⟨2⟩ } haul ⟨1⟩).mp (by decide +kernel)
    obtain ⟨_, _, frame⟩ := ((frames { endpoint := ⟨1⟩, player := ⟨2⟩ }).2.2.2.2.2 haul).2 ⟨1⟩ drives
    have placed : r.driven { endpoint := ⟨1⟩, player := ⟨2⟩ } haul = [⟨1⟩, ⟨4⟩] := by decide +kernel
    rwa [placed] at frame
  · refine ((frames { endpoint := ⟨2⟩, player := ⟨3⟩ }).2.2.2.2.2 haul).1 fun v drives => ?_
    obtain ⟨seat, wheel⟩ := (seated_drives r { endpoint := ⟨2⟩, player := ⟨3⟩ } haul v).mpr drives
    have sits : r.seat { endpoint := ⟨2⟩, player := ⟨3⟩ } = some ⟨1⟩ := by decide +kernel
    cases seat.symm.trans sits
    exact absurd wheel (by decide +kernel)

end Realm
end SharedWorld
