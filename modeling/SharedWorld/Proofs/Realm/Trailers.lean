import Mathlib.Order.Bounds.Defs
import SharedWorld.Proofs.Realm.Boarding

/-! The trailers of a vehicle. The driver's packet hitches them in its order, each behind the one before
it, up to the first that is no vehicle, is in the row already or tows the vehicle itself. No hitching
undoes an earlier one, and none touches what tows the vehicle. -/
namespace SharedWorld
namespace Store
variable {s t : Store} {v tower trailer : ElementId}

/-- A vehicle itself, or one that tows it, directly or through others. -/
def Above (s : Store) (v a : ElementId) : Prop := ∃ n, climb s.towedBy? n v = some a

/-- One that can be hitched behind a vehicle. -/
structure Hitchable (s : Store) (v a : ElementId) : Prop where
  vehicle : s.type? a = some .vehicle
  clear : ¬ s.Above v a

/-- Trailers that can be hitched behind a vehicle in a row: each fits, and none is there twice. -/
structure Train (s : Store) (v : ElementId) (trailers : List ElementId) : Prop where
  fits : ∀ a ∈ trailers, s.Hitchable v a
  once : trailers.Nodup

/-- One tows the other, and both know. -/
def Coupled (s : Store) (a b : ElementId) : Prop := s.towing? a = some b ∧ s.towedBy? b = some a

theorem towing?_eq_reference? : s.towing? = s.reference? .towing := by
  have same (e : Element) : (e.vehicle?.bind fun v => v.towing) = e.reference? .towing := by
    cases e with | mk kind => cases kind <;> rfl
  funext a
  simp only [towing?, reference?, same]

theorem towing?_eq_some {a b : ElementId} : s.towing? a = some b ↔ s.Refers .towing a b := by
  rw [towing?_eq_reference?, reference?_eq_some (by decide)]

theorem Quiet.towing? (h : Quiet s t) (a : ElementId) : t.towing? a = s.towing? a := by
  rw [towing?_eq_reference?, towing?_eq_reference?, h.reference? (by decide)]

theorem Quiet.towedBy? (h : Quiet s t) : t.towedBy? = s.towedBy? := by
  funext a
  rw [towedBy?_eq_reference?, towedBy?_eq_reference?, h.reference? (by decide)]

theorem Linked.coupled (ok : s.Linked) {a b : ElementId} (h : s.towedBy? b = some a) :
    s.Coupled a b :=
  ⟨towing?_eq_some.mpr (ok.towing_iff.mpr (towedBy?_eq_some.mp h)), h⟩

theorem Untangled.towers (free : s.Untangled) (a : ElementId) : Grounded s.towedBy? a :=
  towedBy?_eq_reference? (s := s) ▸ free .towedBy (.inr rfl) a

theorem Above.refl (s : Store) (v : ElementId) : s.Above v v := ⟨0, rfl⟩

theorem Above.not_behind (free : s.Untangled) {a : ElementId} (h : s.Above v a) :
    s.towedBy? a ≠ some v := by
  obtain ⟨n, hn⟩ := h
  intro behind
  refine (free.towers v).no_return n ?_
  rw [climb_succ, hn]
  exact behind

theorem Train.nil (s : Store) (v : ElementId) : s.Train v [] := ⟨nofun, .nil⟩

theorem train_cons {a : ElementId} {rest : List ElementId} :
    s.Train v (a :: rest) ↔ s.Hitchable v a ∧ a ∉ rest ∧ s.Train v rest := by
  constructor
  · rintro ⟨fits, once⟩
    obtain ⟨fresh, once⟩ := List.nodup_cons.mp once
    exact ⟨fits a List.mem_cons_self, fresh, fun x hx => fits x (List.mem_cons_of_mem a hx), once⟩
  · rintro ⟨first, fresh, fits, once⟩
    exact ⟨List.forall_mem_cons.mpr ⟨first, fits⟩, List.nodup_cons.mpr ⟨fresh, once⟩⟩

theorem Quiet.train (h : Quiet s t) (trailers : List ElementId) :
    t.Train v trailers ↔ s.Train v trailers := by
  have above (a) : t.Above v a ↔ s.Above v a := by
    unfold Above
    rw [h.towedBy?]
  have fits (a) : t.Hitchable v a ↔ s.Hitchable v a :=
    ⟨fun ⟨vehicle, clear⟩ => ⟨h.type? a ▸ vehicle, mt (above a).mpr clear⟩,
      fun ⟨vehicle, clear⟩ => ⟨(h.type? a).trans vehicle, mt (above a).mp clear⟩⟩
  exact ⟨fun ⟨all, once⟩ => ⟨fun a ha => (fits a).mp (all a ha), once⟩,
    fun ⟨all, once⟩ => ⟨fun a ha => (fits a).mpr (all a ha), once⟩⟩

theorem attachToTower_answer (ok : s.Linked) (free : s.Untangled)
    (ht : s.type? trailer = some .vehicle) (hw : s.type? tower = some .vehicle) :
    (¬ s.Above tower trailer ∧ ∃ x, s.attachToTower trailer (some tower) = .ok x) ∨
      (s.Above tower trailer ∧
        s.attachToTower trailer (some tower) = .error (.cyclicTow trailer tower)) := by
  obtain ⟨pulled, hv⟩ := vehicle_of_type ht
  obtain ⟨pulling, hp⟩ := vehicle_of_type hw
  unfold attachToTower
  rw [hv]
  dsimp only [bind, Except.bind, pure, Except.pure]
  split
  · next same =>
    have behind : s.towedBy? trailer = some tower :=
      towedBy?_eq_some.mpr ((refers_of_vehicle hv rfl tower).mpr same)
    exact .inl ⟨fun above => above.not_behind free behind, _, rfl⟩
  rw [hp]
  dsimp only
  have search : reaches s.towedBy? trailer (s.size + 1) tower ↔ s.Above tower trailer := by
    unfold Above
    rw [towedBy?_eq_reference?]
    exact ok.reaches_iff (by decide) (by decide) (free .towedBy (.inr rfl) tower)
  split
  · next ring => exact .inr ⟨search.mp ring, rfl⟩
  · next clear => exact .inl ⟨mt search.mpr clear, _, rfl⟩

section Relink
variable (tied : Rewired s t (s.relink .towedBy trailer (some tower)))
include tied

theorem towedBy?_trailer : t.towedBy? trailer = some tower := by
  rw [towedBy?_eq_reference?]
  exact reference?_relinked (by decide) tied

theorem towedBy?_aside {a : ElementId} (other : a ≠ trailer) (apart : s.towedBy? a ≠ some tower) :
    t.towedBy? a = s.towedBy? a := by
  rw [towedBy?_eq_reference?] at apart
  rw [towedBy?_eq_reference?, towedBy?_eq_reference?]
  exact reference?_relinked_aside (by decide) tied other fun _ => apart

theorem climb_tower (free : s.Untangled) (clear : ¬ s.Above tower trailer) (n : Nat) :
    climb t.towedBy? n tower = climb s.towedBy? n tower :=
  climb_congr (fun n _ hn => towedBy?_aside tied (fun here => clear ⟨n, here ▸ hn⟩)
    (Above.not_behind free ⟨n, hn⟩)) n

end Relink

theorem Rewired.unhitched {a : ElementId} (cut : Rewired s t (s.relink .towedBy a none))
    (pair : s.Refers .towing v a) : t.towing? v = none ∧ t.towedBy? a = none := by
  constructor
  · refine Option.eq_none_iff_forall_ne_some.mpr fun b hb => ?_
    rw [towing?_eq_some, cut.refers] at hb
    obtain ⟨_, there⟩ | ⟨other, old, _⟩ := hb
    · cases there
    · exact other (old.unique pair (by decide))
  · refine Option.eq_none_iff_forall_ne_some.mpr fun b hb => ?_
    rw [towedBy?_eq_some, cut.refers] at hb
    obtain ⟨_, there⟩ | ⟨other, _⟩ := hb
    · cases there
    · exact other rfl

theorem detachTowed_succeeds (ok : s.Linked) (hv : s.type? v = some .vehicle) :
    ∃ answer t, s.detachTowed v = .ok (answer, t) ∧ t.towing? v = none ∧
      ∀ a, s.towing? v = some a → t.towedBy? a = none := by
  obtain ⟨vehicle, hv⟩ := vehicle_of_type hv
  have pulls : s.towing? v = vehicle.towing := Option.ext fun a => by
    rw [towing?_eq_some]
    exact refers_of_vehicle hv rfl a
  unfold detachTowed
  rw [hv, pulls]
  dsimp only [bind, Except.bind]
  cases towed : vehicle.towing with
  | none => exact ⟨none, s, rfl, pulls.trans towed, nofun⟩
  | some a =>
    have pair : s.Refers .towing v a := towing?_eq_some.mp (pulls.trans towed)
    obtain ⟨trailer, ha⟩ := vehicle_of_canHold rfl (ok.towing_iff.mp pair).canHold
    obtain ⟨x, done⟩ : ∃ x, s.attachToTower a none = .ok x := by
      unfold attachToTower
      rw [ha]
      dsimp only [bind, Except.bind, pure, Except.pure]
      split <;> exact ⟨_, rfl⟩
    obtain ⟨lets, freed⟩ := (attachToTower_rewired ok done).unhitched pair
    dsimp only
    rw [done]
    exact ⟨some a, x.2, rfl, lets, fun b hb => Option.some.inj hb ▸ freed⟩

/-- What hangs on an element that is attached to nothing follows, and the element stays. -/
theorem stance?_propagate (ok : s.Linked) {a : ElementId} {e : Element} (he : s.find? a = some e)
    (untied : e.attachment = none) : (s.propagate a).2.stance? a = some e.stance := by
  have top : s.target? a = none := by simp [target?, he, Element.target?, untied]
  have settled := propagate_propagated ok (.top top) (contains_iff.mpr ⟨e, he⟩)
  unfold stance?
  rw [settled.elsewhere a (Carries.irrefl (.top top)), he]
  rfl

end Store

open Store

namespace Realm
variable {s t u : Store} {previous : ElementId} {link : TrailerLink} {links : List TrailerLink}

/-- The trailer is behind the one before it, whose own towers are as before, and stands where the link
says if nothing holds it elsewhere. -/
structure Hooked (s : Store) (previous : ElementId) (link : TrailerLink) (t : Store) : Prop where
  steered : Steered s [link.trailer] t
  type? : ∀ a, t.type? a = s.type? a
  behind : t.towedBy? link.trailer = some previous
  above : ∀ n, climb t.towedBy? n previous = climb s.towedBy? n previous
  placed : s.target? link.trailer = none →
    t.stance? link.trailer = some ⟨link.position, link.rotation, none⟩

theorem hitchLink_hooked (ok : s.Linked) (free : s.Untangled)
    (clear : ¬ s.Above previous link.trailer) (h : hitchLink previous link s = .ok (some t)) :
    Hooked s previous link t := by
  have steered : Steered s [link.trailer] t := hitchLink_steered ok free (.refl s) h
  obtain ⟨changed, hitched, placed, tow, move, rfl⟩ := hitchLink_moves h
  have tied := attachToTower_rewired ok tow
  have written : Quiet hitched placed :=
    update_rewired move (modify_quiet (link_tame link) hitched link.trailer)
  have quiet := written.trans (propagate_quiet placed link.trailer)
  have rewired := (tied.trans quiet).congr tied.refers
  refine ⟨steered, rewired.type?, towedBy?_trailer rewired, climb_tower rewired free clear,
    fun untied => ?_⟩
  have turned : Turn s hitched := attachToTower_turn tow
  have linked : placed.Linked := (update_turn (link_tame link) move).linked (turned.linked ok)
  obtain ⟨e, he⟩ := contains_iff.mp (contains_of_update move)
  have alone : e.attachment = none := by
    rw [target?_eq, ← attachToTower_stance tow, ← target?_eq] at untied
    unfold target? at untied
    rw [he] at untied
    exact Option.map_eq_none_iff.mp untied
  have there := find?_update move link.trailer
  rw [if_pos rfl, he] at there
  rw [stance?_propagate linked there alone]
  exact congrArg (fun held => some (Stance.mk link.position link.rotation held)) alone

/-- A link is taken exactly if the trailer fits behind the one before it. -/
theorem hitchLink_cases (ok : s.Linked) (free : s.Untangled)
    (hp : s.type? previous = some .vehicle) (link : TrailerLink) :
    (¬ s.Hitchable previous link.trailer ∧ hitchLink previous link s = .ok none) ∨
      (s.Hitchable previous link.trailer ∧ ∃ t, hitchLink previous link s = .ok (some t) ∧
        Hooked s previous link t) := by
  have taken {t} (clear : ¬ s.Above previous link.trailer)
      (h : hitchLink previous link s = .ok (some t)) : Hooked s previous link t :=
    hitchLink_hooked ok free clear h
  unfold hitchLink at taken ⊢
  split
  · next other => exact .inl ⟨fun fits => other fits.vehicle, rfl⟩
  next vehicle =>
  have vehicle := not_not.mp vehicle
  rw [if_neg (not_not.mpr vehicle)] at taken
  rcases attachToTower_answer ok free vehicle hp with ⟨clear, x, done⟩ | ⟨above, refused⟩
  · rw [done] at taken ⊢
    have still : x.2.type? link.trailer = some .vehicle :=
      ((attachToTower_rewired ok done).type? _).trans vehicle
    obtain ⟨placed, moved⟩ := update_of_type
      (f := ({ · with position := link.position, rotation := link.rotation })) still
    dsimp only at taken ⊢
    rw [moved] at taken ⊢
    exact .inr ⟨⟨vehicle, clear⟩, _, rfl, taken clear rfl⟩
  · rw [refused]
    exact .inl ⟨fun fits => fits.clear above, rfl⟩

namespace Hooked

theorem above_iff (h : Hooked s previous link t) (a : ElementId) :
    t.Above link.trailer a ↔ a = link.trailer ∨ s.Above previous a := by
  have onward (n) : climb t.towedBy? (n + 1) link.trailer = climb s.towedBy? n previous := by
    rw [← h.above n, climb, h.behind]
    rfl
  constructor
  · rintro ⟨n, hn⟩
    cases n with
    | zero => exact .inl (Option.some.inj hn).symm
    | succ n => exact .inr ⟨n, onward n ▸ hn⟩
  · rintro (rfl | ⟨n, hn⟩)
    · exact .refl t _
    · exact ⟨n + 1, (onward n).trans hn⟩

theorem train_iff (h : Hooked s previous link t) (rest : List ElementId) :
    t.Train link.trailer rest ↔ link.trailer ∉ rest ∧ s.Train previous rest := by
  have fits (a) : t.Hitchable link.trailer a ↔ a ≠ link.trailer ∧ s.Hitchable previous a := by
    constructor
    · rintro ⟨vehicle, clear⟩
      rw [h.above_iff, not_or] at clear
      exact ⟨clear.1, h.type? a ▸ vehicle, clear.2⟩
    · rintro ⟨other, vehicle, clear⟩
      refine ⟨(h.type? a).trans vehicle, fun above => ?_⟩
      exact ((h.above_iff a).mp above).elim other clear
  constructor
  · rintro ⟨all, once⟩
    exact ⟨fun here => ((fits _).mp (all _ here)).1 rfl, fun a ha => ((fits a).mp (all a ha)).2, once⟩
  · rintro ⟨fresh, all, once⟩
    exact ⟨fun a ha => (fits a).mpr ⟨fun same => fresh (same ▸ ha), all a ha⟩, once⟩

end Hooked

/-- Of the links the first `n` were taken, and these are all that could be: their trailers are coupled
in a row, and stand where the links say. -/
structure Hauled (s : Store) (previous : ElementId) (links : List TrailerLink) (n : Nat)
    (t : Store) : Prop where
  most : n ≤ links.length
  train : ∀ j ≤ links.length, s.Train previous ((links.take j).map (·.trailer)) ↔ j ≤ n
  taken : hitched previous links s = (links.take n).map (·.trailer)
  done : hitch previous links s = .ok t
  cut : hitch previous (links.take n) s = .ok t
  above : ∀ m, climb t.towedBy? m previous = climb s.towedBy? m previous
  row : List.IsChain t.Coupled (previous :: (links.take n).map (·.trailer))
  placed : ∀ link ∈ links.take n, s.target? link.trailer = none →
    t.stance? link.trailer = some ⟨link.position, link.rotation, none⟩

namespace Hauled

theorem nil (s : Store) (previous : ElementId) : Hauled s previous [] 0 s where
  most := Nat.le_refl 0
  train j hj := by
    rw [List.take_nil]
    exact iff_of_true (.nil s previous) hj
  taken := rfl
  done := rfl
  cut := rfl
  above _ := rfl
  row := .singleton previous
  placed := nofun

theorem refused (misfit : ¬ s.Hitchable previous link.trailer)
    (hl : hitchLink previous link s = .ok none) : Hauled s previous (link :: links) 0 s where
  most := Nat.zero_le _
  train j _ := by
    cases j with
    | zero => exact iff_of_true (.nil s previous) (Nat.le_refl 0)
    | succ j =>
      exact iff_of_false (fun train => misfit (train_cons.mp train).1) (Nat.not_succ_le_zero j)
  taken := by
    unfold hitched
    rw [hl]
    rfl
  done := by rw [hitch_cons, hl]
  cut := rfl
  above _ := rfl
  row := .singleton previous
  placed := nofun

theorem cons (ok : s.Linked) (free : s.Untangled) (fits : s.Hitchable previous link.trailer)
    (hl : hitchLink previous link s = .ok (some t)) (hooked : Hooked s previous link t) {n : Nat}
    (rest : Hauled t link.trailer links n u) : Hauled s previous (link :: links) (n + 1) u := by
  have first : Turns s t := hitchLink_turns hl
  have turns : Turns s u := first.trans (hitch_turns rest.done)
  have behind : u.towedBy? link.trailer = some previous := by
    rw [← hooked.behind]
    simpa [climb] using rest.above 1
  refine ⟨Nat.succ_le_succ rest.most, fun j hj => ?_, ?_, ?_, ?_, fun m => ?_, ?_, ?_⟩
  · cases j with
    | zero => exact iff_of_true (.nil s previous) (Nat.zero_le _)
    | succ j =>
      rw [List.take_succ_cons, List.map_cons, train_cons, ← hooked.train_iff,
        rest.train j (Nat.le_of_succ_le_succ hj), and_iff_right fits, Nat.succ_le_succ_iff]
  · unfold hitched
    rw [hl]
    exact congrArg (link.trailer :: ·) rest.taken
  · rw [hitch_cons, hl]
    exact rest.done
  · rw [List.take_succ_cons, hitch_cons, hl]
    exact rest.cut
  · have onward := rest.above (m + 1)
    rw [climb, climb, behind, hooked.behind] at onward
    exact onward.trans (hooked.above m)
  · exact .cons_cons ((turns.linked ok).coupled behind) rest.row
  · refine List.forall_mem_cons.mpr ⟨fun untied => ?_, fun other hother untied => ?_⟩
    · -- No later link is about the same trailer, and what is moved does not hold it.
      have later : Steered t (hitched link.trailer links t) u :=
        hitch_steered (first.linked ok) (first.untangled ok free) (.refl t) rest.done
      have fresh : link.trailer ∉ hitched link.trailer links t := by
        rw [rest.taken]
        exact ((hooked.train_iff _).mp ((rest.train n rest.most).mpr (Nat.le_refl n))).1
      rw [later.elsewhere _ fresh fun x _ carried => ?_]
      · exact hooked.placed untied
      · obtain ⟨c, held, _⟩ := carried.cases
        rw [hooked.steered.target, untied] at held
        cases held
    · refine rest.placed other hother ?_
      rw [hooked.steered.target, untied]

end Hauled

theorem hitch_hauled (ok : s.Linked) (free : s.Untangled) (hp : s.type? previous = some .vehicle)
    (links : List TrailerLink) : ∃ n t, Hauled s previous links n t := by
  induction links generalizing previous s with
  | nil => exact ⟨0, s, .nil s previous⟩
  | cons link links ih =>
    rcases hitchLink_cases ok free hp link with ⟨misfit, hl⟩ | ⟨fits, t, hl, hooked⟩
    · exact ⟨0, s, .refused misfit hl⟩
    · have turns : Turns s t := hitchLink_turns hl
      have vehicle : t.type? link.trailer = some .vehicle := (hooked.type? _).trans fits.vehicle
      obtain ⟨n, u, rest⟩ := ih (turns.linked ok) (turns.untangled ok free) vehicle
      exact ⟨n + 1, u, .cons ok free fits hl hooked rest⟩

theorem Hauled.greatest {n : Nat} (h : Hauled s previous links n t) :
    IsGreatest {j | j ≤ links.length ∧ s.Train previous ((links.take j).map (·.trailer))} n :=
  ⟨⟨h.most, (h.train n h.most).mpr (Nat.le_refl n)⟩, fun j hj => (h.train j hj.1).mp hj.2⟩

variable {r : Realm} {sender : Client} {v : ElementId}

theorem syncTrailers_nil (ok : s.Linked) (hv : s.type? v = some .vehicle) :
    ∃ t, syncTrailers s v [] = .ok t ∧ t.towing? v = none ∧
      (∀ a, s.towing? v = some a → t.towedBy? a = none) ∧ ∀ a, t.stance? a = s.stance? a := by
  obtain ⟨answer, t, detached, lets, freed⟩ := detachTowed_succeeds ok hv
  unfold syncTrailers
  rw [detached]
  exact ⟨t, rfl, lets, freed, detachTowed_stance detached⟩

theorem syncTrailers_of_ne (named : links ≠ []) (s : Store) (v : ElementId) :
    syncTrailers s v links = hitch v links s :=
  if_neg (mt List.isEmpty_iff.mp named)

theorem updatePlayer_succeeds {id : ElementId} (h : s.CanHold .seat id) (state : Player → Player)
    (transform : Element → Element) : ∃ t, s.updatePlayer id state transform = .ok t := by
  obtain ⟨player, read⟩ := player_of_canHold h
  obtain ⟨e, he, _⟩ := h
  unfold Store.updatePlayer
  rw [read]
  exact update_of_type (congrArg (Option.map Element.type) he)

theorem updateVehicle_succeeds {id : ElementId} (h : s.CanHold .driver id) (state : Vehicle → Vehicle)
    (transform : Element → Element) : ∃ t, s.updateVehicle id state transform = .ok t := by
  obtain ⟨vehicle, read⟩ := vehicle_of_canHold rfl h
  obtain ⟨e, he, _⟩ := h
  unfold Store.updateVehicle
  rw [read]
  exact update_of_type (congrArg (Option.map Element.type) he)

def underway (r : Realm) (sender : Client) (v : ElementId) (packet : VehicleSync) : Store :=
  let s := r.seated sender packet
  ((s.after (s.updateVehicle v (drivenState packet) (drivenTransform packet))).propagate v).2

theorem underway_quiet (r : Realm) (sender : Client) (v : ElementId) (packet : VehicleSync) :
    Quiet r.store (r.underway sender v packet) := by
  refine Quiet.trans ((seated_quiet r sender packet).trans ?_) (propagate_quiet _ v)
  cases h : (r.seated sender packet).updateVehicle v (drivenState packet) (drivenTransform packet) with
  | error e => exact .refl _
  | ok written =>
    exact update_rewired (updateVehicle_update h) (modify_quiet (driven_tame packet) _ v)

theorem handleVehicle_steers (h : r.store.CanHold .seat sender.player) (packet : VehicleSync) :
    let steered := steer sender (r.seat sender) packet
      ((r.withStore (r.seated sender packet)).reportHit sender.player packet.hit)
    (r.handleVehicle sender packet).1 = steered.1 ∧
      (r.handleVehicle sender packet).2.world = steered.2.world := by
  have told : (r.tellInVehicle sender packet).world = r.world := rfl
  have live : r.store.contains sender.player := contains_iff.mpr (h.imp fun _ he => he.1)
  obtain ⟨spoken, hp⟩ := updatePlayer_succeeds h (seatedState packet) (seatedTransform packet)
  have first : r.seated sender packet = spoken := by
    unfold seated
    rw [hp]
    rfl
  rw [handleVehicle_eq live, ((rideOn_secluded sender _ packet).answer told).1,
    ((rideOn_secluded sender _ packet).answer told).2]
  unfold rideOn
  rw [hp, first]
  exact ⟨rfl, rfl⟩

theorem handleVehicle_of_drives (h : r.store.Drives sender.player v) (packet : VehicleSync)
    (done : syncTrailers (r.underway sender v packet) v packet.trailers = .ok t) :
    (r.handleVehicle sender packet).1 = .ok () ∧
      (r.handleVehicle sender packet).2.world =
        (((r.withStore (r.seated sender packet)).reportHit sender.player packet.hit).withStore
          t).world := by
  obtain ⟨seat, wheel⟩ := (seated_drives r sender packet v).mpr h
  have held : (r.seated sender packet).CanHold .driver v :=
    ((seated_quiet r sender packet).canHold _ _).mpr h.2.canHold
  obtain ⟨moved, hv⟩ := updateVehicle_succeeds held (drivenState packet) (drivenTransform packet)
  have driven : drive (r.seated sender packet) v packet = .ok t := by
    unfold underway at done
    dsimp only at done
    rw [hv] at done
    unfold drive
    rw [hv]
    exact done
  obtain ⟨answer, world⟩ := handleVehicle_steers h.1.canHold packet
  rw [answer, world, seat]
  unfold steer
  dsimp only
  rw [reportHit_store, withStore_store, if_neg (not_not.mpr wheel), driven]
  exact ⟨rfl, rfl⟩

theorem underway_vehicle (h : r.store.Drives sender.player v) (packet : VehicleSync) :
    (r.underway sender v packet).type? v = some .vehicle := by
  obtain ⟨vehicle, read⟩ := vehicle_of_canHold rfl h.2.canHold
  exact ((underway_quiet r sender v packet).type? v).trans (type?_of_vehicle read)

theorem handleVehicle_unhitches (ok : r.store.Linked) (h : r.store.Drives sender.player v)
    (packet : VehicleSync) (bare : packet.trailers = []) :
    let t := (r.handleVehicle sender packet).2.store
    (r.handleVehicle sender packet).1 = .ok () ∧ t.towing? v = none ∧
      (∀ a, r.store.towing? v = some a → t.towedBy? a = none) ∧
      ∀ a, t.stance? a = (r.underway sender v packet).stance? a := by
  intro t
  have quiet := underway_quiet r sender v packet
  obtain ⟨loose, done, lets, freed, stands⟩ :=
    syncTrailers_nil (ok.of_quiet quiet) (underway_vehicle h packet)
  obtain ⟨granted, world⟩ := handleVehicle_of_drives h packet (bare ▸ done)
  have here : t = loose := congrArg World.store world
  rw [here]
  exact ⟨granted, lets, fun a towed => freed a ((quiet.towing? v).trans towed), stands⟩

theorem handleVehicle_hauls (ok : r.store.Linked) (free : r.store.Untangled)
    (h : r.store.Drives sender.player v) (packet : VehicleSync) (named : packet.trailers ≠ []) :
    ∃ k, Hauled (r.underway sender v packet) v packet.trailers k
        (r.handleVehicle sender packet).2.store ∧
      (r.handleVehicle sender packet).1 = .ok () ∧
      (0 < k → (r.handleVehicle sender packet).2.world =
        (r.handleVehicle sender { packet with trailers := packet.trailers.take k }).2.world) := by
  have quiet := underway_quiet r sender v packet
  obtain ⟨k, u, hauled⟩ := hitch_hauled (ok.of_quiet quiet) (free.of_quiet quiet)
    (underway_vehicle h packet) packet.trailers
  have done := (syncTrailers_of_ne named (r.underway sender v packet) v).trans hauled.done
  obtain ⟨granted, world⟩ := handleVehicle_of_drives h packet done
  have here : (r.handleVehicle sender packet).2.store = u := congrArg World.store world
  refine ⟨k, here ▸ hauled, granted, fun taken => ?_⟩
  have front : packet.trailers.take k ≠ [] := by simp [named, Nat.ne_of_gt taken]
  have cut := (syncTrailers_of_ne front (r.underway sender v packet) v).trans hauled.cut
  exact world.trans (handleVehicle_of_drives h
    { packet with trailers := packet.trailers.take k } cut).2.symm

/-- In every state that a realm can reach, a packet from the driver of a vehicle is taken in. With no
trailers the vehicle lets go of what it tows. Otherwise as many of the first trailers as can be hitched
in a row are coupled behind the vehicle, in the order of the packet, and what tows the vehicle stays as
it is: so it would be had the packet named no others, and where the first does not fit, nothing is
towed or placed. A trailer in the row that is attached to nothing stands where its link says. -/
theorem run_trailers (cellSize : Single) (ids : IdSource) (root : ElementId) (ops : List Op)
    (sender : Client) {v : ElementId}
    (drives : ((fresh cellSize ids root).run ops).store.driver? v = some sender.player)
    (packet : VehicleSync) :
    let r := (fresh cellSize ids root).run ops
    let sent (links : List TrailerLink) := r.handleVehicle sender { packet with trailers := links }
    let t := (sent packet.trailers).2.store
    (sent packet.trailers).1 = .ok () ∧
    (packet.trailers = [] →
      t.towing? v = none ∧ ∀ a, r.store.towing? v = some a → t.towedBy? a = none) ∧
    (packet.trailers ≠ [] → ∃ k,
      IsGreatest {j | j ≤ packet.trailers.length ∧
        r.store.Train v ((packet.trailers.take j).map (·.trailer))} k ∧
      List.IsChain t.Coupled (v :: (packet.trailers.take k).map (·.trailer)) ∧
      (∀ n, climb t.towedBy? n v = climb r.store.towedBy? n v) ∧
      (0 < k → (sent packet.trailers).2.world = (sent (packet.trailers.take k)).2.world) ∧
      (k = 0 → ∀ a, t.towing? a = r.store.towing? a ∧ t.towedBy? a = r.store.towedBy? a ∧
        t.stance? a = (sent []).2.store.stance? a) ∧
      ∀ link ∈ packet.trailers.take k, r.store.target? link.trailer = none →
        t.stance? link.trailer = some ⟨link.position, link.rotation, none⟩) := by
  intro r sent t
  have ok : r.store.Linked := run_linked cellSize ids root ops
  have free : r.store.Untangled := run_untangled cellSize ids root ops
  have wheel : r.store.Refers .driver v sender.player := driver?_eq_some.mp drives
  have drives : r.store.Drives sender.player v := ⟨ok.seat_of_driver wheel, wheel⟩
  by_cases empty : packet.trailers = []
  · obtain ⟨granted, lets, freed, _⟩ := handleVehicle_unhitches ok drives packet empty
    exact ⟨granted, fun _ => ⟨lets, freed⟩, fun named => absurd empty named⟩
  have quiet : Quiet r.store (r.underway sender v packet) := underway_quiet r sender v packet
  obtain ⟨k, hauled, granted, cut⟩ := handleVehicle_hauls ok free drives packet empty
  refine ⟨granted, fun bare => absurd bare empty, fun _ => ⟨k, ?_, hauled.row, fun n => ?_, cut,
    fun stopped a => ?_, fun link hl untied => ?_⟩⟩
  · simpa only [quiet.train] using hauled.greatest
  · rw [hauled.above, quiet.towedBy?]
  · subst stopped
    have same : t = r.underway sender v packet := (Except.ok.inj hauled.cut).symm
    obtain ⟨_, _, _, stands⟩ := handleVehicle_unhitches ok drives { packet with trailers := [] } rfl
    rw [stands, same, quiet.towing?, quiet.towedBy?]
    exact ⟨rfl, rfl, rfl⟩
  · exact hauled.placed link hl ((quiet.target? _).trans untied)

def stutter : VehicleSync :=
  { trailers := [⟨⟨4⟩, ⟨.one, .zero, .zero⟩, .zero⟩, ⟨⟨4⟩, .zero, .zero⟩] }

theorem roadside_trailers :
    let r := (fresh Grid.defaultCellSize (.counter 1) ⟨0⟩).run roadside
    let sent := r.handleVehicle { endpoint := ⟨1⟩, player := ⟨2⟩ } stutter
    r.store.driver? ⟨1⟩ = some ⟨2⟩ ∧ sent.1 = .ok () ∧ sent.2.store.Coupled ⟨1⟩ ⟨4⟩ ∧
      sent.2.store.stance? ⟨4⟩ = some ⟨⟨.one, .zero, .zero⟩, .zero, none⟩ := by
  intro r sent
  have drives : r.store.driver? ⟨1⟩ = some ⟨2⟩ := by decide +kernel
  obtain ⟨granted, _, hauls⟩ := run_trailers Grid.defaultCellSize (.counter 1) ⟨0⟩ roadside
    { endpoint := ⟨1⟩, player := ⟨2⟩ } drives stutter
  obtain ⟨k, ⟨⟨short, train⟩, most⟩, row, _, _, _, placed⟩ := hauls nofun
  have fits : r.store.Hitchable ⟨1⟩ ⟨4⟩ := by
    refine ⟨by decide +kernel, fun ⟨n, hn⟩ => ?_⟩
    have first : r.store.towedBy? ⟨1⟩ = none := by decide +kernel
    cases n with
    | zero => cases hn
    | succ n => simp [climb, first] at hn
  have one : 1 ≤ k := most ⟨by decide, train_cons.mpr ⟨fits, List.not_mem_nil, .nil _ _⟩⟩
  have notTwo : k ≠ 2 := by
    rintro rfl
    exact absurd train.once (by decide)
  have both : k ≤ 2 := short
  obtain rfl : k = 1 := by omega
  refine ⟨drives, granted, (List.isChain_cons_cons.mp row).1, ?_⟩
  exact placed ⟨⟨4⟩, ⟨.one, .zero, .zero⟩, .zero⟩ List.mem_cons_self (by decide +kernel)

end Realm
end SharedWorld
