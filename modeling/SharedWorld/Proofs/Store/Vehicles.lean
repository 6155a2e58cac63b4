import SharedWorld.Proofs.Store.Linked

/-! What towing and taking seats make of the references in a linked store. -/
namespace SharedWorld.Store
variable {s t : Store}

theorem vehicle_eq_ok {id : ElementId} {v : Vehicle} :
    s.vehicle id = .ok v ↔ ∃ e, s.find? id = some e ∧ e.kind = .vehicle v := by
  unfold vehicle Element.vehicle?
  cases s.find? id with
  | none => simp
  | some e => cases hk : e.kind <;> simp [hk]

theorem player_eq_ok {id : ElementId} {p : Player} :
    s.player id = .ok p ↔ ∃ e, s.find? id = some e ∧ e.kind = .player p := by
  unfold player Element.player?
  cases s.find? id with
  | none => simp
  | some e => cases hk : e.kind <;> simp [hk]

section Vehicle
variable {id : ElementId} {v : Vehicle}

theorem refers_of_vehicle (h : s.vehicle id = .ok v) {tie : Tie} (held : tie.heldBy = some .vehicle)
    (b : ElementId) : s.Refers tie id b ↔ v.reference? tie = some b := by
  obtain ⟨e, he, hk⟩ := vehicle_eq_ok.mp h
  rw [refers_of_find? he, Element.refers_of_vehicle hk held]

theorem type?_of_vehicle (h : s.vehicle id = .ok v) : s.type? id = some .vehicle := by
  obtain ⟨e, he, hk⟩ := vehicle_eq_ok.mp h
  simp [type?, he, Element.type, hk, ElementKind.type]

theorem canHold_of_vehicle (h : s.vehicle id = .ok v) {tie : Tie}
    (held : tie.heldBy = some .vehicle) : s.CanHold tie id := by
  obtain ⟨e, he, hk⟩ := vehicle_eq_ok.mp h
  exact ⟨e, he, by simp [held, Element.type, hk, ElementKind.type]⟩

end Vehicle

section Player
variable {id : ElementId} {p : Player}

theorem refers_of_player (h : s.player id = .ok p) (b : ElementId) :
    s.Refers .seat id b ↔ p.vehicle = some b := by
  obtain ⟨e, he, hk⟩ := player_eq_ok.mp h
  rw [refers_of_find? he]
  simp [Element.Refers, hk, ElementKind.reference?, Player.reference?]

theorem canHold_of_player (h : s.player id = .ok p) : s.CanHold .seat id := by
  obtain ⟨e, he, hk⟩ := player_eq_ok.mp h
  exact ⟨e, he, by simp [Tie.heldBy, Element.type, hk, ElementKind.type]⟩

end Player

theorem retow_rewired (ok : s.Linked) {trailer : ElementId} {old tower displaced : Option ElementId}
    (holds : s.CanHold .towedBy trailer) (hold : ∀ b, s.Refers .towedBy trailer b ↔ old = some b)
    (pulls : ∀ a, tower = some a → s.CanHold .towing a)
    (hdis : ∀ b, displaced = some b ↔ ∃ a, tower = some a ∧ s.Refers .towing a b) :
    Rewired s (s.retow trailer old tower displaced) (s.relink .towedBy trailer tower) := by
  have h1 := modifyAll_cuts (Element.cuts_towing trailer) old.toList s
  have h2 := h1.trans (modifyAll_sets (Element.sets_towedBy none) displaced.toList _)
  have h3 := h2.trans (modifyAll_sets (Element.sets_towing (some trailer)) tower.toList _)
  have h4 := h3.trans (modify_sets (Element.sets_towedBy tower) _ trailer)
  refine h4.congr fun tie a b => ?_
  rw [h3.refers, h2.refers, h1.refers, h2.canHold, h3.canHold]
  simp only [Option.mem_toList]
  clear h1 h2 h3 h4
  cases tie with
  | towedBy =>
    by_cases ha : a = trailer
    · subst ha
      simp [relink, holds]
    · have lets : s.Refers .towedBy a b →
          (displaced = some a ↔ tower = some b) := by
        intro hab
        rw [hdis]
        constructor
        · rintro ⟨w, hw, hwa⟩
          rw [hw, (ok.towing_iff.mp hwa).unique hab (by decide)]
        · intro hb
          exact ⟨b, hb, ok.towing_iff.mpr hab⟩
      simp [relink, ha, Tie.inverse, Tie.IsSingle]
      tauto
  | towing =>
    by_cases ha : tower = some a
    · simp [relink, ha, pulls a ha, Tie.inverse, Tie.IsSingle, eq_comm]
    · have lost : s.Refers .towing a b → (old = some a ∧ b = trailer ↔ b = trailer) := fun h =>
        and_iff_right_of_imp fun hb => (hold a).mp (hb ▸ ok.towing_iff.mp h)
      simp [relink, ha, Tie.inverse, Tie.IsSingle]
      tauto
  | _ => simp [relink, Tie.inverse]

theorem attachToTower_rewired (ok : s.Linked) {trailer : ElementId} {tower : Option ElementId}
    {answer : Bool} (h : s.attachToTower trailer tower = .ok (answer, t)) :
    Rewired s t (s.relink .towedBy trailer tower) := by
  unfold attachToTower at h
  rw [bind_eq_ok] at h
  obtain ⟨v, hv, h⟩ := h
  have hold (b) : s.Refers .towedBy trailer b ↔ v.towedBy = some b := refers_of_vehicle hv rfl b
  dsimp only at h
  split at h
  · next same =>
    cases h
    exact (Quiet.refl s).congr (relink_same ok (by simp [Tie.IsSingle]) (by simp [hold, same]))
  · cases tower with
    | none =>
      cases h
      exact retow_rewired ok (canHold_of_vehicle hv rfl) hold nofun (by simp)
    | some w =>
      rw [bind_eq_ok] at h
      obtain ⟨pulling, hw, h⟩ := h
      split at h <;> cases h
      have pulls (a) (ha : some w = some a) : s.CanHold .towing a := by
        cases ha
        exact canHold_of_vehicle hw rfl
      have pulled (b) : s.Refers .towing w b ↔ pulling.towing = some b :=
        refers_of_vehicle hw rfl b
      exact retow_rewired ok (canHold_of_vehicle hv rfl) hold pulls (by simp [pulled])

theorem attachToTower_clear {trailer w : ElementId} {answer : Bool}
    (h : s.attachToTower trailer (some w) = .ok (answer, t)) :
    s.Refers .towedBy trailer w ∨ ¬ reaches (s.reference? .towedBy) trailer (s.size + 1) w := by
  rw [← towedBy?_eq_reference?]
  unfold attachToTower at h
  rw [bind_eq_ok] at h
  obtain ⟨v, hv, h⟩ := h
  dsimp only at h
  split at h
  · next same => exact .inl ((refers_of_vehicle hv rfl w).mpr same)
  · rw [bind_eq_ok] at h
    obtain ⟨pulling, _, h⟩ := h
    split at h
    · cases h
    · next clear => exact .inr clear

theorem detachTowed_cases {tower : ElementId} {answer : Option ElementId}
    (h : s.detachTowed tower = .ok (answer, t)) :
    t = s ∨ ∃ trailer changed, s.attachToTower trailer none = .ok (changed, t) := by
  unfold detachTowed at h
  rw [bind_eq_ok] at h
  obtain ⟨v, hv, h⟩ := h
  split at h
  · cases h
    exact .inl rfl
  · next trailer _ =>
    rw [bind_eq_ok] at h
    obtain ⟨x, hx, h⟩ := h
    cases h
    exact .inr ⟨trailer, x.1, hx⟩

/-- The references once the driver of `v` is `d`, or nobody. -/
def redrive (s : Store) (v : ElementId) (d : Option ElementId) (tie : Tie) (a b : ElementId) :
    Prop :=
  match tie with
  | .driver => (a = v ∧ d = some b) ∨ (a ≠ v ∧ s.Refers .driver a b ∧ d ≠ some b)
  | .seat => (d = some a ∧ b = v) ∨ (d ≠ some a ∧ s.Refers .seat a b ∧ ¬ s.Refers .driver v a)
  | tie => s.Refers tie a b

/-- The references once `p` drives nothing and rides in `y`, or sits nowhere. -/
def ride (s : Store) (p : ElementId) (y : Option ElementId) (tie : Tie) (a b : ElementId) : Prop :=
  match tie with
  | .driver => s.Refers .driver a b ∧ b ≠ p
  | .seat => (a = p ∧ y = some b) ∨ (a ≠ p ∧ s.Refers .seat a b)
  | tie => s.Refers tie a b

theorem redrive_same (ok : s.Linked) {v : ElementId} {d : Option ElementId}
    (hd : ∀ b, s.Refers .driver v b ↔ d = some b) (tie : Tie) (a b : ElementId) :
    s.Refers tie a b ↔ s.redrive v d tie a b := by
  have seated {p} (hp : d = some p) : s.Refers .seat p v := ok.seat_of_driver ((hd p).mpr hp)
  cases tie with
  | driver =>
    by_cases ha : a = v
    · simp [redrive, ha, hd]
    · have other : s.Refers .driver a b → d ≠ some b := fun h hb =>
        ha ((ok.seat_of_driver h).unique (seated hb) (by decide))
      simp only [redrive, ha, false_and, false_or, ne_eq, not_false_eq_true, true_and]
      exact (and_iff_left_of_imp other).symm
  | seat =>
    by_cases ha : d = some a
    · simp only [redrive, ha, true_and, ne_eq, not_true_eq_false, false_and, or_false]
      exact ⟨fun h => h.unique (seated ha) (by decide), fun h => h ▸ seated ha⟩
    · simp [redrive, ha, hd]
  | _ => exact Iff.rfl

theorem reseat_rewired (ok : s.Linked) {v : ElementId} {old previous d : Option ElementId}
    (holds : s.CanHold .driver v) (hold : ∀ b, s.Refers .driver v b ↔ old = some b)
    (sits : ∀ p, d = some p → s.CanHold .seat p)
    (hprev : ∀ p, d = some p → ∀ b, s.Refers .seat p b ↔ previous = some b) :
    Rewired s (s.reseat v old previous d) (s.redrive v d) := by
  have h1 := modifyAll_cuts (Element.cuts_seat v) (old.filter (some · ≠ d)).toList s
  have h2 := h1.trans (modifyAll_cuts (Element.cuts_driver d) (previous.filter (· ≠ v)).toList _)
  have h3 := h2.trans (modify_sets (Element.sets_driver d) _ v)
  have h4 := h3.trans (modifyAll_sets (Element.sets_seat (some v)) d.toList _)
  refine h4.congr fun tie a b => ?_
  rw [h3.refers, h2.refers, h1.refers, h2.canHold, h3.canHold]
  simp only [Option.mem_toList, Option.filter_eq_some_iff, decide_eq_true_eq]
  clear h1 h2 h3 h4
  cases tie with
  | driver =>
    by_cases ha : a = v
    · subst ha
      simp [redrive, holds]
    · have leaves : s.Refers .driver a b → some b = d → previous = some a := fun h hb =>
        (hprev b hb.symm a).mp (ok.seat_of_driver h)
      simp [redrive, ha, eq_comm]
      tauto
  | seat =>
    by_cases ha : d = some a
    · simp [redrive, ha, sits a ha, eq_comm]
    · have sat : s.Refers .seat a b → old = some a → v = b := fun h hv =>
        (ok.seat_of_driver ((hold a).mpr hv)).unique h (by decide)
      simp [redrive, ha, eq_comm, hold]
      tauto
  | _ => simp [redrive]

theorem setDriver_rewired (ok : s.Linked) {v : ElementId} {d : Option ElementId}
    (h : s.setDriver v d = .ok t) :
    s.type? v = some .vehicle ∧ Rewired s t (s.redrive v d) := by
  unfold setDriver at h
  rw [bind_eq_ok] at h
  obtain ⟨vehicle, hv, h⟩ := h
  have hold (b) : s.Refers .driver v b ↔ vehicle.driver = some b := refers_of_vehicle hv rfl b
  have holds : s.CanHold .driver v := canHold_of_vehicle hv rfl
  refine ⟨type?_of_vehicle hv, ?_⟩
  cases d with
  | none =>
    simp only [pure_bind] at h
    split at h <;> cases h
    · next same => exact (Quiet.refl s).congr (redrive_same ok (by simp [hold, same.1]))
    · exact reseat_rewired ok holds hold nofun nofun
  | some p =>
    dsimp only at h
    rw [bind_eq_ok] at h
    obtain ⟨player, hp, h⟩ := h
    simp only [pure_bind] at h
    split at h <;> cases h
    · next same => exact (Quiet.refl s).congr (redrive_same ok (by simp [hold, same.1]))
    · refine reseat_rewired ok holds hold (fun q hq => ?_) (fun q hq => ?_)
      · cases hq
        exact canHold_of_player hp
      · cases hq
        exact refers_of_player hp

theorem ride_same {p : ElementId} {y : Option ElementId}
    (hp : ∀ b, s.Refers .seat p b ↔ y = some b) (idle : ∀ a, ¬ s.Refers .driver a p) (tie : Tie)
    (a b : ElementId) : s.Refers tie a b ↔ s.ride p y tie a b := by
  cases tie with
  | driver =>
    refine (and_iff_left_of_imp fun h hb => idle a ?_).symm
    rwa [← hb]
  | seat =>
    by_cases ha : a = p
    · simp [ride, ha, hp]
    · simp [ride, ha]
  | _ => exact Iff.rfl

theorem update_seat_rewired {p : ElementId} {y : Option ElementId}
    (holds : s.CanHold .seat p) (idle : ∀ a, ¬ s.Refers .driver a p)
    (h : s.update p (·.updatePlayer ({ · with vehicle := y })) = .ok t) :
    Rewired s t (s.ride p y) := by
  refine (update_rewired h (modify_sets (Element.sets_seat y) s p)).congr fun tie a b => ?_
  cases tie with
  | driver =>
    have other : s.Refers .driver a b → b ≠ p := fun h hb => idle a (hb ▸ h)
    simpa [ride] using other
  | seat =>
    by_cases ha : a = p
    · simp [ride, ha, holds]
    · simp [ride, ha]
  | _ => simp [ride]

theorem redrive_none (ok : s.Linked) {v p : ElementId} (hd : s.Refers .driver v p) (tie : Tie)
    (a b : ElementId) : s.redrive v none tie a b ↔ s.ride p none tie a b := by
  have only (q) : s.Refers .driver v q ↔ q = p :=
    ⟨fun h => h.unique hd (by decide), fun h => h ▸ hd⟩
  cases tie with
  | driver =>
    have same : s.Refers .driver a b → (a = v ↔ b = p) := by
      intro h
      constructor
      · rintro rfl
        exact (only b).mp h
      · rintro rfl
        exact (ok.seat_of_driver h).unique (ok.seat_of_driver hd) (by decide)
    simp [redrive, ride]
    tauto
  | seat => simp [redrive, ride, only, and_comm]
  | _ => exact Iff.rfl

theorem leaveVehicle_rewired (ok : s.Linked) {p : ElementId} {answer : Option ElementId}
    (h : s.leaveVehicle p = .ok (answer, t)) : Rewired s t (s.ride p none) := by
  unfold leaveVehicle at h
  rw [bind_eq_ok] at h
  obtain ⟨player, hp, h⟩ := h
  have sits (b) : s.Refers .seat p b ↔ player.vehicle = some b := refers_of_player hp b
  have sat {a} (h : s.Refers .driver a p) : player.vehicle = some a :=
    (sits a).mp (ok.seat_of_driver h)
  split at h
  · next hnone =>
    cases h
    refine (Quiet.refl s).congr (ride_same (by simp [sits, hnone]) fun a h => ?_)
    simp [hnone] at sat
    exact sat h
  · next v hv =>
    rw [bind_eq_ok] at h
    obtain ⟨vehicle, hvv, h⟩ := h
    have drives (b) : s.Refers .driver v b ↔ vehicle.driver = some b := refers_of_vehicle hvv rfl b
    dsimp only at h
    split at h
    · next hd =>
      rw [bind_eq_ok] at h
      obtain ⟨t', ht, h⟩ := h
      cases h
      exact (setDriver_rewired ok ht).2.congr (redrive_none ok ((drives p).mpr hd))
    · next hd =>
      have idle (a) (ha : s.Refers .driver a p) : False := by
        cases Option.some.inj (hv.symm.trans (sat ha))
        exact hd ((drives p).mp ha)
      rw [bind_eq_ok] at h
      obtain ⟨t', ht, h⟩ := h
      cases h
      exact update_seat_rewired (canHold_of_player hp) idle ht

theorem ride_ride {p : ElementId} {y z : Option ElementId} (h : Rewired s t (s.ride p y))
    (tie : Tie) (a b : ElementId) : t.ride p z tie a b ↔ s.ride p z tie a b := by
  cases tie with
  | driver => simp [ride, h.refers]
  | seat =>
    by_cases ha : a = p
    · simp [ride, ha]
    · simp [ride, h.refers, ha]
  | _ => simp [ride, h.refers]

theorem seatPassenger_rewired (ok : s.Linked) {v p : ElementId}
    (h : s.seatPassenger v p = .ok t) :
    s.type? v = some .vehicle ∧ Rewired s t (s.ride p (some v)) := by
  unfold seatPassenger at h
  rw [bind_eq_ok] at h
  obtain ⟨vehicle, hv, h⟩ := h
  rw [bind_eq_ok] at h
  obtain ⟨player, hp, h⟩ := h
  have sits (b) : s.Refers .seat p b ↔ player.vehicle = some b := refers_of_player hp b
  have drives (b) : s.Refers .driver v b ↔ vehicle.driver = some b := refers_of_vehicle hv rfl b
  have holds : s.CanHold .seat p := canHold_of_player hp
  refine ⟨type?_of_vehicle hv, ?_⟩
  dsimp only at h
  split at h
  · next stays =>
    cases h
    refine (Quiet.refl s).congr (ride_same (by simp [sits, stays.1]) fun a ha => stays.2 ?_)
    cases Option.some.inj (stays.1.symm.trans ((sits a).mp (ok.seat_of_driver ha)))
    exact (drives p).mp ha
  · split at h
    · next hnone =>
      refine update_seat_rewired holds (fun a ha => ?_) h
      have := (sits a).mp (ok.seat_of_driver ha)
      rw [hnone] at this
      cases this
    · rw [bind_map_left] at h
      rw [bind_eq_ok] at h
      obtain ⟨left, hl, h⟩ := h
      have first := leaveVehicle_rewired ok hl
      have idle (a) : ¬ left.2.Refers .driver a p := by
        rw [first.refers]
        exact fun h => h.2 rfl
      have second := update_seat_rewired ((first.canHold _ _).mpr holds) idle h
      exact (first.trans second).congr (ride_ride first)

end SharedWorld.Store
