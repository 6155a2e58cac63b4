import SharedWorld.Proofs.Realm.Frame

/-! Who sits where once somebody gets in or out. Taking the wheel always works; taking another seat, or
getting out, works unless the player is still on record as sitting in a vehicle that is gone. -/
namespace SharedWorld
namespace Store
variable {s t : Store} {p v : ElementId}

def seat? (s : Store) (p : ElementId) : Option ElementId := (s.player p).toOption.bind (·.vehicle)

def driver? (s : Store) (v : ElementId) : Option ElementId := (s.vehicle v).toOption.bind (·.driver)

/-- What the player is on record as sitting in is no live vehicle. -/
def Stranded (s : Store) (p : ElementId) : Prop :=
  ∃ gone, s.seat? p = some gone ∧ s.type? gone ≠ some .vehicle

/-- The seats of `t`; what else ties elements together is as it is in `s`, and all are there still. -/
structure Reseated (s t : Store) (seat driver : ElementId → Option ElementId) : Prop where
  seat : ∀ q, t.seat? q = seat q
  driver : ∀ w, t.driver? w = driver w
  rest : ∀ {tie} a b, tie ≠ .seat → tie ≠ .driver → (t.Refers tie a b ↔ s.Refers tie a b)
  type? : ∀ a, t.type? a = s.type? a

theorem driver?_eq_some : s.driver? v = some p ↔ s.Refers .driver v p := Realm.driver_eq_some

theorem seat?_eq_some : s.seat? p = some v ↔ s.Refers .seat p v := by
  unfold seat?
  cases h : s.player p with
  | ok player => exact (refers_of_player h v).symm
  | error e =>
    refine iff_of_false nofun fun refers => ?_
    obtain ⟨player, hp⟩ := player_of_canHold refers.canHold
    exact absurd (h.symm.trans hp) nofun

theorem player_of_type (h : s.type? p = some .player) : ∃ player, s.player p = .ok player := by
  obtain ⟨e, he, type⟩ := Option.map_eq_some_iff.mp h
  exact player_of_canHold ⟨e, he, by simp [Tie.heldBy, type]⟩

theorem vehicle_of_type (h : s.type? v = some .vehicle) : ∃ vehicle, s.vehicle v = .ok vehicle := by
  obtain ⟨e, he, type⟩ := Option.map_eq_some_iff.mp h
  have driven : s.CanHold .driver v := ⟨e, he, by simp [Tie.heldBy, type]⟩
  exact vehicle_of_canHold rfl driven

theorem vehicle_of_not_type (h : s.type? v ≠ some .vehicle) : ∃ err, s.vehicle v = .error err := by
  cases hv : s.vehicle v with
  | error err => exact ⟨err, rfl⟩
  | ok vehicle => exact absurd (type?_of_vehicle hv) h

theorem update_of_type {f : Element → Element} {type : ElementType} (h : s.type? p = some type) :
    ∃ t, s.update p f = .ok t := by
  obtain ⟨e, he, _⟩ := Option.map_eq_some_iff.mp h
  unfold update
  rw [he]
  dsimp only
  split <;> exact ⟨_, rfl⟩

theorem driver?_of_cut {d w : ElementId}
    (cut : ∀ b, t.Refers .driver w b ↔ s.Refers .driver w b ∧ b ≠ d) :
    t.driver? w = if s.driver? w = some d then none else s.driver? w := by
  refine Option.ext fun b => ?_
  rw [driver?_eq_some, cut]
  split
  · next drove =>
    rw [driver?_eq_some] at drove
    have only : s.Refers .driver w b → b = d := fun hb => hb.unique drove (by decide)
    exact iff_of_false (fun ⟨hb, other⟩ => other (only hb)) nofun
  · next kept =>
    rw [driver?_eq_some] at kept
    rw [driver?_eq_some]
    exact and_iff_left_of_imp fun hb same => kept (same ▸ hb)

theorem redrive_reseated {d : ElementId} (h : Rewired s t (s.redrive v (some d))) :
    Reseated s t
      (fun q => if q = d then some v else if s.driver? v = some q then none else s.seat? q)
      (fun w => if w = v then some d else if s.driver? w = some d then none else s.driver? w) := by
  refine ⟨fun q => Option.ext fun b => ?_, fun w => ?_, fun {tie} a b hs hd => ?_, h.type?⟩
  · rw [seat?_eq_some, h.refers]
    by_cases hq : q = d
    · simp [redrive, hq, eq_comm]
    · have other : d ≠ q := Ne.symm hq
      rw [if_neg hq]
      split
      · next drove =>
        rw [driver?_eq_some] at drove
        simp [redrive, other, drove]
      · next idle =>
        rw [driver?_eq_some] at idle
        simp [redrive, other, idle, seat?_eq_some]
  · split
    · next same =>
      rw [driver?_eq_some, h.refers]
      exact .inl ⟨same, rfl⟩
    · next hw =>
      refine driver?_of_cut fun b => ?_
      rw [h.refers]
      simp [redrive, hw, eq_comm]
  · rw [h.refers]
    cases tie <;> first | exact Iff.rfl | contradiction

theorem ride_reseated {y : Option ElementId} (h : Rewired s t (s.ride p y)) :
    Reseated s t (fun q => if q = p then y else s.seat? q)
      (fun w => if s.driver? w = some p then none else s.driver? w) := by
  refine ⟨fun q => Option.ext fun b => ?_, fun w => driver?_of_cut fun b => ?_,
    fun {tie} a b hs hd => ?_, h.type?⟩
  · rw [seat?_eq_some, h.refers]
    by_cases hq : q = p
    · simp [ride, hq]
    · simp [ride, hq, seat?_eq_some]
  · rw [h.refers]
    rfl
  · rw [h.refers]
    cases tie <;> first | exact Iff.rfl | contradiction

theorem setDriver_succeeds {d : Option ElementId} (hv : s.type? v = some .vehicle)
    (hd : ∀ p, d = some p → s.type? p = some .player) : ∃ t, s.setDriver v d = .ok t := by
  obtain ⟨vehicle, hv⟩ := vehicle_of_type hv
  unfold setDriver
  rw [hv]
  dsimp only [bind, Except.bind, pure, Except.pure]
  cases d with
  | none =>
    dsimp only
    split <;> exact ⟨_, rfl⟩
  | some p =>
    obtain ⟨player, hp⟩ := player_of_type (hd p rfl)
    dsimp only
    rw [hp]
    dsimp only
    split <;> exact ⟨_, rfl⟩

theorem seat?_of_player {player : Player} (h : s.player p = .ok player) :
    s.seat? p = player.vehicle := by
  unfold seat?
  rw [h]
  rfl

theorem leaveVehicle_succeeds (hp : s.type? p = some .player) (there : ¬ s.Stranded p) :
    ∃ t, s.leaveVehicle p = .ok (s.seat? p, t) := by
  obtain ⟨player, read⟩ := player_of_type hp
  have sits := seat?_of_player read
  unfold leaveVehicle
  rw [read, sits]
  dsimp only [bind, Except.bind]
  cases hw : player.vehicle with
  | none => exact ⟨s, rfl⟩
  | some w =>
    have live : s.type? w = some .vehicle :=
      Decidable.byContradiction fun gone => there ⟨w, sits.trans hw, gone⟩
    obtain ⟨vehicle, hv⟩ := vehicle_of_type live
    dsimp only
    rw [hv]
    dsimp only
    split
    · obtain ⟨t, ht⟩ : ∃ t, s.setDriver w none = .ok t := setDriver_succeeds live nofun
      rw [ht]
      exact ⟨t, rfl⟩
    · obtain ⟨t, ht⟩ := update_of_type (f := (·.updatePlayer ({ · with vehicle := none }))) hp
      rw [ht]
      exact ⟨t, rfl⟩

theorem seatPassenger_succeeds (ok : s.Linked) (hp : s.type? p = some .player)
    (hv : s.type? v = some .vehicle) (there : ¬ s.Stranded p) :
    ∃ t, s.seatPassenger v p = .ok t := by
  obtain ⟨player, read⟩ := player_of_type hp
  obtain ⟨vehicle, hv⟩ := vehicle_of_type hv
  unfold seatPassenger
  rw [hv, read]
  dsimp only [bind, Except.bind]
  split
  · exact ⟨s, rfl⟩
  · split
    · exact update_of_type hp
    · obtain ⟨u, left⟩ := leaveVehicle_succeeds hp there
      rw [left]
      have still : u.type? p = some .player := ((leaveVehicle_rewired ok left).type? p).trans hp
      exact update_of_type still

theorem Stranded.refused (h : s.Stranded p) : ∃ gone err, s.seat? p = some gone ∧
    s.vehicle gone = .error err ∧ s.leaveVehicle p = .error err ∧
    (s.type? v = some .vehicle → s.seatPassenger v p = .error err) := by
  obtain ⟨gone, sits, notVehicle⟩ := h
  obtain ⟨err, unread⟩ := vehicle_of_not_type notVehicle
  obtain ⟨player, read⟩ := player_of_canHold (seat?_eq_some.mp sits).canHold
  have at_gone : player.vehicle = some gone := (seat?_of_player read).symm.trans sits
  have stuck : s.leaveVehicle p = .error err := by
    unfold leaveVehicle
    rw [read]
    dsimp only [bind, Except.bind]
    rw [at_gone]
    dsimp only
    rw [unread]
  refine ⟨gone, err, sits, unread, stuck, fun live => ?_⟩
  obtain ⟨vehicle, hv⟩ := vehicle_of_type live
  have elsewhere : gone ≠ v := fun same => notVehicle (same ▸ live)
  unfold seatPassenger
  rw [hv, read]
  dsimp only [bind, Except.bind]
  rw [at_gone, if_neg fun stays => elsewhere (Option.some.inj stays.1), if_neg nofun, stuck]
  rfl

end Store

open Store

namespace Realm

/-- In every state that a realm can reach a live player can take the wheel of a live vehicle: the one
who drove it then sits nowhere, and the one that the player drove has no driver. A player who is not
stranded can take another seat as well, or get out, and then drives nothing; a stranded one is refused
both, for the vehicle that is gone. No other seat changes. -/
theorem run_boarding (cellSize : Single) (ids : IdSource) (root : ElementId) (ops : List Op)
    {p v : ElementId} (player : ((fresh cellSize ids root).run ops).store.type? p = some .player)
    (vehicle : ((fresh cellSize ids root).run ops).store.type? v = some .vehicle) :
    let s := ((fresh cellSize ids root).run ops).store
    (∃ t, s.setDriver v (some p) = .ok t ∧ Reseated s t
      (fun q => if q = p then some v else if s.driver? v = some q then none else s.seat? q)
      (fun w => if w = v then some p else if s.driver? w = some p then none else s.driver? w)) ∧
    (¬ s.Stranded p →
      (∃ t, s.seatPassenger v p = .ok t ∧ Reseated s t
        (fun q => if q = p then some v else s.seat? q)
        (fun w => if s.driver? w = some p then none else s.driver? w)) ∧
      ∃ t, s.leaveVehicle p = .ok (s.seat? p, t) ∧ Reseated s t
        (fun q => if q = p then none else s.seat? q)
        (fun w => if s.driver? w = some p then none else s.driver? w)) ∧
    (s.Stranded p → ∃ gone err, s.seat? p = some gone ∧ s.vehicle gone = .error err ∧
      s.seatPassenger v p = .error err ∧ s.leaveVehicle p = .error err) := by
  intro s
  have ok : s.Linked := run_linked cellSize ids root ops
  refine ⟨?_, fun there => ⟨?_, ?_⟩, fun stranded => ?_⟩
  · obtain ⟨t, done⟩ := setDriver_succeeds vehicle fun q hq => Option.some.inj hq ▸ player
    exact ⟨t, done, redrive_reseated (setDriver_rewired ok done).2⟩
  · obtain ⟨t, done⟩ := seatPassenger_succeeds ok player vehicle there
    exact ⟨t, done, ride_reseated (seatPassenger_rewired ok done).2⟩
  · obtain ⟨t, done⟩ := leaveVehicle_succeeds player there
    exact ⟨t, done, ride_reseated (leaveVehicle_rewired ok done)⟩
  · obtain ⟨gone, err, sits, unread, stuck, refused⟩ := stranded.refused (v := v)
    exact ⟨gone, err, sits, unread, refused vehicle, stuck⟩

def convoy : List Op :=
  [.world (.store (.insert { kind := .vehicle { model := 403 } })),
    .world (.store (.insert { kind := .vehicle { model := 411 } })),
    .world (.store (.insert { kind := .player { endpoint := ⟨1⟩ } })),
    .world (.store (.insert { kind := .player { endpoint := ⟨2⟩ } })),
    .world (.store (.insert { kind := .player { endpoint := ⟨3⟩ } })),
    .world (.store (.setDriver ⟨1⟩ (some ⟨3⟩))),
    .world (.store (.setDriver ⟨2⟩ (some ⟨4⟩))),
    .world (.store (.seatPassenger ⟨2⟩ ⟨5⟩))]

theorem convoy_boarding :
    let s := ((fresh Grid.defaultCellSize (.counter 1) ⟨0⟩).run convoy).store
    s.type? ⟨4⟩ = some .player ∧ s.type? ⟨1⟩ = some .vehicle ∧
      ∃ t, s.setDriver ⟨1⟩ (some ⟨4⟩) = .ok t ∧ t.seat? ⟨3⟩ = none ∧ t.driver? ⟨2⟩ = none := by
  intro s
  have player : s.type? ⟨4⟩ = some .player := by decide
  have vehicle : s.type? ⟨1⟩ = some .vehicle := by decide
  obtain ⟨t, done, seats⟩ := (run_boarding Grid.defaultCellSize (.counter 1) ⟨0⟩ convoy player vehicle).1
  refine ⟨player, vehicle, t, done, ?_, ?_⟩
  · rw [seats.seat]
    decide
  · rw [seats.driver]
    decide

/-- The car is gone, and the one who did not drive it can neither get into the truck nor out. -/
theorem passenger_kept_out :
    let s := ((fresh Grid.defaultCellSize (.counter 1) ⟨0⟩).run
      (convoy ++ [.world (.remove ⟨2⟩)])).store
    s.type? ⟨5⟩ = some .player ∧ s.type? ⟨1⟩ = some .vehicle ∧ s.seat? ⟨4⟩ = none ∧
      s.seatPassenger ⟨1⟩ ⟨5⟩ = .error (.notFound ⟨2⟩) ∧
      s.leaveVehicle ⟨5⟩ = .error (.notFound ⟨2⟩) := by
  refine ⟨by decide, by decide, by decide, rfl, rfl⟩

end Realm
end SharedWorld
