import SharedWorld.Proofs.Realm.Vehicles
import SharedWorld.Proofs.Store.Followers
import SharedWorld.Proofs.World.Writes

/-! What hangs on an element that a packet moves. The handlers put followers to their places after
each transform that they commit, with one exception: what hangs on a player in a vehicle stays
behind, unless it hangs on the vehicle or on a trailer as well. -/
namespace SharedWorld
namespace Store
variable {s t u : Store}

section Stance
variable {f : Element → Element}

theorem modify_stance (same : ∀ e, (f e).stance = e.stance) (s : Store) (id x : ElementId) :
    (s.modify id f).stance? x = s.stance? x := by
  unfold stance?
  rw [find?_modify]
  split
  · simp [Function.comp_def, same]
  · rfl

theorem modifyAll_stance (same : ∀ e, (f e).stance = e.stance) (ids : List ElementId) (s : Store)
    (x : ElementId) : (s.modifyAll ids f).stance? x = s.stance? x := by
  induction ids generalizing s with
  | nil => rfl
  | cons id ids ih => exact (ih _).trans (modify_stance same s id x)

end Stance

theorem updateVehicle_stance (g : Vehicle → Vehicle) (e : Element) :
    (e.updateVehicle g).stance = e.stance := by
  cases e with | mk kind => cases kind <;> rfl

theorem retow_stance (s : Store) (trailer : ElementId) (old tower displaced : Option ElementId)
    (x : ElementId) : (s.retow trailer old tower displaced).stance? x = s.stance? x := by
  unfold retow
  dsimp only
  rw [modify_stance (updateVehicle_stance _), modifyAll_stance (updateVehicle_stance _),
    modifyAll_stance (updateVehicle_stance _), modifyAll_stance (updateVehicle_stance _)]

theorem attachToTower_stance {trailer : ElementId} {tower : Option ElementId} {changed : Bool}
    (h : s.attachToTower trailer tower = .ok (changed, t)) (x : ElementId) :
    t.stance? x = s.stance? x := by
  rcases attachToTower_cases h with rfl | ⟨old, displaced, rfl⟩
  · rfl
  · exact retow_stance ..

theorem detachTowed_stance {tower : ElementId} {trailer : Option ElementId}
    (h : s.detachTowed tower = .ok (trailer, t)) (x : ElementId) : t.stance? x = s.stance? x := by
  rcases detachTowed_cases h with rfl | ⟨_, _, h⟩
  · rfl
  · exact attachToTower_stance h x

/-- From `s` on, the elements in `written` were moved one after another, each with what hangs on it.
What hangs on any of them follows its target; what does not stands where it stood. -/
structure Steered (s : Store) (written : List ElementId) (t : Store) : Prop where
  turns : Turns s t
  target : ∀ a, t.target? a = s.target? a
  follows : ∀ e ∉ written, ∀ x ∈ written, s.Carries x e → t.Follows e
  elsewhere : ∀ e ∉ written, (∀ x ∈ written, ¬ s.Carries x e) → t.stance? e = s.stance? e

namespace Steered
variable {written : List ElementId}

theorem refl (s : Store) : Steered s [] s :=
  ⟨.refl, fun _ => rfl, fun _ _ _ hx => (nomatch hx), fun _ _ _ => rfl⟩

theorem still (h : Steered s written t) (turn : Turn t u) (same : ∀ x, u.stance? x = t.stance? x) :
    Steered s written u where
  turns := h.turns.tail turn
  target a := by rw [← h.target, target?_eq, target?_eq, same]
  follows e he x hx carried :=
    (follows_congr (same e) fun c _ => same c).mpr (h.follows e he x hx carried)
  elsewhere e he free := (same e).trans (h.elsewhere e he free)

theorem write (h : Steered s written t) (ok : s.Linked) (free : s.Untangled) {id : ElementId}
    {f : Element → Element} (tame : Element.Tame f) (hu : t.update id f = .ok u) :
    Steered s (written ++ [id]) (u.propagate id).2 := by
  have moved : Turns s u := h.turns.tail (update_turn tame hu)
  have quiet : Quiet t u := update_rewired hu (modify_quiet tame t id)
  have target (a) : u.target? a = s.target? a := (quiet.target? a).trans (h.target a)
  have up (a) : Grounded u.target? a := funext target ▸ free .target (.inl rfl) a
  have live : u.contains id := (quiet.contains id).mpr (contains_of_update hu)
  have settled := propagate_propagated (moved.linked ok) (up id) live
  have stance {x} (hx : x ≠ id) (apart : ¬ s.Carries id x) :
      (u.propagate id).2.stance? x = t.stance? x := by
    unfold stance?
    rw [settled.elsewhere x (fun carried => apart ((carries_congr target x).mp carried)),
      find?_update hu, if_neg hx]
  refine ⟨moved.tail (propagate_turn u id), fun a => (settled.quiet.target? a).trans (target a),
    fun e he x hx carried => ?_, fun e he apart => ?_⟩
  · by_cases below : s.Carries id e
    · exact settled.follows e ((carries_congr target e).mpr below)
    · have hx : x ∈ written := by
        rcases List.mem_append.mp hx with hx | hx
        · exact hx
        · exact absurd (List.mem_singleton.mp hx ▸ carried) below
      have old : t.Follows e := h.follows e (fun hin => he (List.mem_append_left _ hin)) x hx carried
      have other : e ≠ id := fun here => he (here ▸ by simp)
      refine (follows_congr (stance other below) fun c hc => ?_).mpr old
      rw [h.target] at hc
      refine stance (fun here => below (here ▸ .direct hc)) fun above => ?_
      exact below (above.trans (.direct hc))
  · have other : e ≠ id := fun here => he (here ▸ by simp)
    rw [stance other (apart id (by simp))]
    exact h.elsewhere e (fun hin => he (List.mem_append_left _ hin)) fun x hx =>
      apart x (List.mem_append_left _ hx)

theorem follows_iff (h : Steered s written t) {e : ElementId} (he : e ∉ written) :
    t.Follows e ↔ (∃ x ∈ written, t.Carries x e) ∨ s.Follows e := by
  have carries (x y) : t.Carries x y ↔ s.Carries x y := carries_congr h.target y
  simp only [carries]
  by_cases moved : ∃ x ∈ written, s.Carries x e
  · obtain ⟨x, hx, carried⟩ := moved
    exact iff_of_true (h.follows e he x hx carried) (.inl ⟨x, hx, carried⟩)
  · rw [or_iff_right moved]
    refine follows_congr (h.elsewhere e he fun x hx below => moved ⟨x, hx, below⟩) fun c hc => ?_
    refine h.elsewhere c (fun hin => moved ⟨c, hin, .direct hc⟩) fun x hx above => ?_
    exact moved ⟨x, hx, above.trans (.direct hc)⟩

end Steered
end Store

open Store

namespace Realm
variable {s t : Store}

/-- The trailers that come to stand where the packet puts them. -/
def hitched (previous : ElementId) : List TrailerLink → Store → List ElementId
  | [], _ => []
  | link :: links, s =>
    match hitchLink previous link s with
    | .ok (some s) => link.trailer :: hitched link.trailer links s
    | _ => []

/-- The store when a player in a vehicle has spoken for itself. -/
def seated (r : Realm) (sender : Client) (packet : VehicleSync) : Store :=
  r.store.after (r.store.updatePlayer sender.player (seatedState packet) (seatedTransform packet))

/-- The vehicle and the trailers that a packet moves: none, unless the player drives. -/
def driven (r : Realm) (sender : Client) (packet : VehicleSync) : List ElementId :=
  let s := r.seated sender packet
  match (r.store.find? sender.player).bind fun e => e.player?.bind (·.vehicle) with
  | none => []
  | some vehicle =>
    if (s.vehicle vehicle).toOption.bind (·.driver) ≠ some sender.player then []
    else
      let moved := s.after (s.updateVehicle vehicle (drivenState packet) (drivenTransform packet))
      vehicle :: hitched vehicle packet.trailers (moved.propagate vehicle).2

section Steered
variable {s₀ : Store} {written : List ElementId}

theorem hitchLink_steered (ok : s₀.Linked) (free : s₀.Untangled) (h : Steered s₀ written s)
    {previous : ElementId} {link : TrailerLink} (hl : hitchLink previous link s = .ok (some t)) :
    Steered s₀ (written ++ [link.trailer]) t := by
  obtain ⟨changed, a, b, tow, move, rfl⟩ := hitchLink_moves hl
  exact (h.still (attachToTower_turn tow) (attachToTower_stance tow)).write ok free (link_tame link)
    move

theorem hitch_steered (ok : s₀.Linked) (free : s₀.Untangled) {previous : ElementId}
    {links : List TrailerLink} (h : Steered s₀ written s) (ht : hitch previous links s = .ok t) :
    Steered s₀ (written ++ hitched previous links s) t := by
  induction links generalizing previous s written with
  | nil =>
    cases ht
    simpa [hitched] using h
  | cons link links ih =>
    rw [hitch_cons] at ht
    unfold hitched
    split at ht
    · cases ht
    · next hl =>
      cases ht
      rw [hl]
      simpa using h
    · next hl =>
      rw [hl]
      simpa using ih (hitchLink_steered ok free h hl) ht

theorem syncTrailers_steered (ok : s₀.Linked) (free : s₀.Untangled) {vehicle : ElementId}
    {links : List TrailerLink} (h : Steered s₀ written s)
    (ht : syncTrailers s vehicle links = .ok t) :
    Steered s₀ (written ++ hitched vehicle links s) t := by
  unfold syncTrailers at ht
  split at ht
  · next none =>
    rw [List.isEmpty_iff.mp none]
    obtain ⟨x, hx, ht⟩ := map_eq_ok.mp ht
    cases ht
    simpa [hitched] using h.still (detachTowed_turn hx) (detachTowed_stance hx)
  · exact hitch_steered ok free h ht

end Steered

theorem handlePlayer_steered {r r' : Realm} (ok : r.store.Linked) (free : r.store.Untangled)
    {sender : Client} {packet : PlayerSync} (h : r.handlePlayer sender packet = (.ok (), r')) :
    Steered r.store [sender.player] r'.store := by
  unfold handlePlayer at h
  dsimp only at h
  split at h
  · cases h
  · next written hw =>
    cases h
    rw [reportHit_store]
    exact (Steered.refl r.store).write ok free (onFoot_tame packet _) (updatePlayer_update hw)

theorem drive_steered {s₀ : Store} (ok : s₀.Linked) (free : s₀.Untangled) {vehicle : ElementId}
    {packet : VehicleSync} (h : drive s₀ vehicle packet = .ok t) :
    let moved := s₀.after (s₀.updateVehicle vehicle (drivenState packet) (drivenTransform packet))
    Steered s₀ (vehicle :: hitched vehicle packet.trailers (moved.propagate vehicle).2) t := by
  obtain ⟨written, hw, h⟩ := bind_eq_ok.mp h
  rw [hw]
  have first := (Steered.refl s₀).write ok free (driven_tame packet) (updateVehicle_update hw)
  exact syncTrailers_steered ok free first h

/-- From where the player has spoken for itself on, all that is moved takes along what hangs on it. -/
theorem handleVehicle_steered {r r' : Realm} (ok : r.store.Linked) (free : r.store.Untangled)
    {sender : Client} {packet : VehicleSync} (h : r.handleVehicle sender packet = (.ok (), r')) :
    Turn r.store (r.seated sender packet) ∧
      (∀ x, x ≠ sender.player → (r.seated sender packet).stance? x = r.store.stance? x) ∧
      Steered (r.seated sender packet) (r.driven sender packet) r'.store := by
  unfold handleVehicle at h
  dsimp only at h
  split at h
  · cases h
  next e he =>
  split at h
  · cases h
  next written hw =>
  have hw : r.store.updatePlayer sender.player (seatedState packet) (seatedTransform packet) =
    .ok written := hw
  have hu := updatePlayer_update hw
  have turn : Turn r.store written := update_turn (seated_tame packet) hu
  have found : r.store.find? sender.player = some e := he
  have seat : r.seated sender packet = written := by rw [seated, hw]; rfl
  rw [driven, seat, found, Option.bind_some]
  refine ⟨turn, fun x hx => ?_, ?_⟩
  · unfold stance?
    rw [find?_update hu, if_neg hx]
  simp only [reportHit_store, withStore_store] at h
  cases hv : e.player?.bind (·.vehicle) with
  | none =>
    simp only [hv] at h
    cases h
    simpa using Steered.refl written
  | some vehicle =>
    simp only [hv] at h
    dsimp only
    split at h
    · next idle =>
      cases h
      split
      · simpa using Steered.refl written
      · next drives => exact absurd idle drives
    next drives =>
    split at h
    · cases h
    · next moved hd =>
      cases h
      split
      · next idle => exact absurd idle drives
      · exact drive_steered (turn.linked ok) (turn.untangled ok free) hd

/-- After a packet on foot everything that hangs on the player is where its own target holds it.
After a packet in a vehicle this is so of what hangs on the vehicle or on a trailer that was moved;
the rest is left standing, what hangs on the player included, and follows only if it stood right
already. -/
theorem run_followers (cellSize : Single) (ids : IdSource) (root : ElementId) (ops : List Op)
    (sender : Client) :
    let r := (fresh cellSize ids root).run ops
    (∀ packet r', r.handlePlayer sender packet = (.ok (), r') →
      ∀ e, r'.store.Carries sender.player e → r'.store.Follows e) ∧
    ∀ packet r', r.handleVehicle sender packet = (.ok (), r') →
      ∀ e ∉ sender.player :: r.driven sender packet,
        (r'.store.Follows e ↔ (∃ x ∈ r.driven sender packet, r'.store.Carries x e) ∨
          (r.seated sender packet).Follows e) ∧
        ((∀ x ∈ r.driven sender packet, ¬ r'.store.Carries x e) →
          r'.store.stance? e = r.store.stance? e) := by
  intro r
  have ok : r.store.Linked := run_linked cellSize ids root ops
  have free : r.store.Untangled := run_untangled cellSize ids root ops
  refine ⟨fun packet r' h e carried => ?_, fun packet r' h e he => ?_⟩
  · have steered := handlePlayer_steered ok free h
    have below : r.store.Carries sender.player e := (carries_congr steered.target e).mp carried
    have other : e ≠ sender.player := by
      rintro rfl
      exact Carries.irrefl (free .target (.inl rfl) _) below
    exact steered.follows e (by simpa using other) sender.player (by simp) below
  · obtain ⟨turn, stance, steered⟩ := handleVehicle_steered ok free h
    obtain ⟨other, he⟩ : e ≠ sender.player ∧ e ∉ r.driven sender packet := by simpa using he
    refine ⟨steered.follows_iff he, fun apart => ?_⟩
    rw [← stance e other]
    exact steered.elsewhere e he fun x hx below =>
      apart x hx ((carries_congr steered.target e).mpr below)

def burden : List Op :=
  [.world (.store (.insert { kind := .player { endpoint := ⟨1⟩ } })),
    .world (.store (.insert { kind := .object 1 })),
    .world (.store (.attach ⟨2⟩ ⟨1⟩ ⟨.one, .zero, .zero⟩ .zero))]

def laden : Realm := (fresh Grid.defaultCellSize (.counter 1) ⟨0⟩).run burden

def bearer : Client := { endpoint := ⟨1⟩, player := ⟨1⟩ }

def walk : PlayerSync := { position := ⟨.ofNat 5, .zero, .zero⟩ }

def drift : VehicleSync := { position := ⟨.ofNat 5, .zero, .zero⟩ }

/-- A car with its driver, a trailer beside the road, and an object on the car and on the trailer. -/
def freight : List Op :=
  [.world (.store (.insert { kind := .vehicle { model := 411 } })),
    .world (.store (.insert { kind := .player { endpoint := ⟨1⟩ } })),
    .world (.store (.insert { kind := .vehicle { model := 606 } })),
    .world (.store (.insert { kind := .object 1 })), .world (.store (.insert { kind := .object 1 })),
    .world (.store (.setDriver ⟨1⟩ (some ⟨2⟩))),
    .world (.store (.attach ⟨4⟩ ⟨1⟩ ⟨.one, .zero, .zero⟩ .zero)),
    .world (.store (.attach ⟨5⟩ ⟨3⟩ ⟨.zero, .one, .zero⟩ .zero))]

def depot : Realm := (fresh Grid.defaultCellSize (.counter 1) ⟨0⟩).run freight

def carrier : Client := { endpoint := ⟨1⟩, player := ⟨2⟩ }

def delivery : VehicleSync :=
  { position := ⟨.ofNat 5, .zero, .zero⟩, rotation := ⟨.zero, .zero, .ofNat 90⟩,
    trailers := [⟨⟨3⟩, ⟨.one, .zero, .zero⟩, .zero⟩] }

theorem laden_followers :
    let walked := laden.handlePlayer bearer walk
    let drifted := laden.handleVehicle bearer drift
    let driven := depot.handleVehicle carrier delivery
    (walked.1 = .ok () ∧ walked.2.store.Carries ⟨1⟩ ⟨2⟩ ∧ walked.2.store.Follows ⟨2⟩) ∧
      (drifted.1 = .ok () ∧ drifted.2.store.stance? ⟨2⟩ = laden.store.stance? ⟨2⟩) ∧
      driven.1 = .ok () ∧ depot.driven carrier delivery = [⟨1⟩, ⟨3⟩] ∧
      driven.2.store.Carries ⟨1⟩ ⟨4⟩ ∧ driven.2.store.Follows ⟨4⟩ ∧
      driven.2.store.Carries ⟨3⟩ ⟨5⟩ ∧ driven.2.store.Follows ⟨5⟩ := by
  intro walked drifted driven
  have granted : walked.1 = .ok () ∧ drifted.1 = .ok () := by decide +kernel
  have walks : laden.handlePlayer bearer walk = (.ok (), walked.2) := by rw [← granted.1]
  have drifts : laden.handleVehicle bearer drift = (.ok (), drifted.2) := by rw [← granted.2]
  have carried : walked.2.store.Carries ⟨1⟩ ⟨2⟩ := ⟨0, by decide +kernel⟩
  have idle (x) : x ∉ laden.driven bearer drift := by
    have none : laden.driven bearer drift = [] := by decide +kernel
    rw [none]
    exact List.not_mem_nil
  have apart : ⟨2⟩ ∉ bearer.player :: laden.driven bearer drift := by decide +kernel
  obtain ⟨onFoot, inVehicle⟩ := run_followers Grid.defaultCellSize (.counter 1) ⟨0⟩ burden bearer
  have follows := onFoot walk walked.2 walks ⟨2⟩ carried
  have left := (inVehicle drift drifted.2 drifts ⟨2⟩ apart).2 fun x hx => absurd hx (idle x)
  refine ⟨⟨granted.1, carried, follows⟩, ⟨granted.2, left⟩, ?_⟩
  have accepted : driven.1 = .ok () := by decide +kernel
  have drives : depot.handleVehicle carrier delivery = (.ok (), driven.2) := by rw [← accepted]
  have moved : depot.driven carrier delivery = [⟨1⟩, ⟨3⟩] := by decide +kernel
  have onCar : driven.2.store.Carries ⟨1⟩ ⟨4⟩ := ⟨0, by decide +kernel⟩
  have onTrailer : driven.2.store.Carries ⟨3⟩ ⟨5⟩ := ⟨0, by decide +kernel⟩
  have stands {x e} (onto : x ∈ depot.driven carrier delivery)
      (aside : e ∉ carrier.player :: depot.driven carrier delivery)
      (on : driven.2.store.Carries x e) : driven.2.store.Follows e :=
    (((run_followers Grid.defaultCellSize (.counter 1) ⟨0⟩ freight carrier).2 delivery driven.2 drives
      e aside).1).mpr (.inl ⟨x, onto, on⟩)
  rw [moved] at stands
  exact ⟨accepted, moved, onCar, stands (by decide) (by decide) onCar, onTrailer,
    stands (by decide) (by decide) onTrailer⟩

theorem object_left_behind :
    let drifted := laden.handleVehicle bearer drift
    drifted.1 = .ok () ∧ ⟨2⟩ ∉ bearer.player :: laden.driven bearer drift ∧
      drifted.2.store.Carries bearer.player ⟨2⟩ ∧ ¬ drifted.2.store.Follows ⟨2⟩ :=
  ⟨by decide +kernel, by decide +kernel, ⟨0, by decide +kernel⟩, by decide +kernel⟩

end Realm
end SharedWorld
