import SharedWorld.Proofs.Zone.Requests

/-! What a pass over all shapes leaves behind. A check sees to one shape and one element, and makes no
other membership better or worse. -/
namespace SharedWorld

theorem IdSet.mem_foldl_add {ids : List ElementId} {s : IdSet} {id : ElementId} :
    id ∈ ids.foldl IdSet.add s ↔ id ∈ ids ∨ id ∈ s := by
  induction ids generalizing s with
  | nil => simp
  | cons i ids ih =>
    rw [List.foldl_cons, ih, IdSet.mem_add, List.mem_cons]
    tauto

open Store

namespace World
variable {w u v : World} {shape element : ElementId}

/-- A member that is not within the shape, where both now stand. -/
def Stale (w : World) (shape element : ElementId) : Prop :=
  w.isMember shape element ∧ ¬ w.isInside shape element

theorem isInside_congr (same : ∀ a, u.store.find? a = w.store.find? a) :
    u.isInside shape element = w.isInside shape element := by
  unfold isInside
  rw [same, same]

theorem check_find? (w : World) (s e a : ElementId) :
    (w.check s e).2.store.find? a = w.store.find? a :=
  check_keeps (fun w => w.store.find? a) (fun _ _ _ => by rw [announce_store])
    (fun _ _ => find?_modifyWatchers ..) (fun _ _ _ => rfl) w

theorem modifyZone_isMember (w : World) (s e : ElementId) (f : Zone → Zone) :
    (w.modifyZone s f).isMember shape e = if shape = s
      then (w.zones.find? shape).any fun z => (f z).members.contains e else w.isMember shape e := by
  unfold isMember
  rw [find?_modifyZone]
  split
  · rw [Option.any_map]
  · rfl

theorem announce_isMember (w : World) (s e : ElementId) (c : Crossing) (z : Zone) :
    (w.announce s e c z).isMember shape element = w.isMember shape element := by
  rw [announce_eq]
  rfl

theorem unwatch_isMember (w : World) (id : ElementId) (sub : SubscriptionId) :
    (w.unwatch id sub).2.isMember shape element = w.isMember shape element := by
  unfold isMember
  rw [unwatch_zones]

theorem check_isMember (w : World) (s e : ElementId) (other : ¬ (s = shape ∧ e = element)) :
    (w.check s e).2.isMember shape element = w.isMember shape element := by
  refine check_keeps (fun w => w.isMember shape element) (fun _ _ _ => announce_isMember ..)
    (fun _ _ => rfl) (fun w move others => ?_) w
  rw [modifyZone_isMember]
  split
  · next hs =>
    have he : element ≠ e := fun he => other ⟨hs.symm, he.symm⟩
    simp only [others _ _ he]
    rfl
  · rfl

theorem check_isActive (w : World) (s e : ElementId) :
    (w.check s e).2.isActive shape = w.isActive shape := by
  refine check_keeps (fun w => w.isActive shape) (fun _ _ _ => by rw [announce_eq]; rfl)
    (fun _ _ => rfl) (fun w move _ => ?_) w
  unfold isActive
  rw [find?_modifyZone]
  split
  · rw [Option.any_map]
  · rfl

theorem check_not_stale (active : w.isActive shape) (apart : element ≠ shape) :
    ¬ (w.check shape element).2.Stale shape element := by
  rintro ⟨member, outside⟩
  rw [isInside_congr (check_find? w shape element)] at outside
  obtain ⟨z, hz, on⟩ := (Option.any_eq_true ..).mp active
  simp only [check, hz] at member
  rcases checkZone_cases w shape element z with ⟨h, _, within⟩ | ⟨l, inside, _⟩ | ⟨sub, _, _, h⟩
  · rw [h] at member
    refine outside (within on apart ?_)
    simpa [isMember, hz] using member
  · exact outside inside
  · rw [h, announce_isMember, unwatch_isMember, modifyZone_isMember] at member
    simp [hz, Table.contains] at member

theorem check_enters (active : w.isActive shape) (apart : element ≠ shape)
    (opened : ¬ w.Shut element) (inside : w.isInside shape element) :
    (w.check shape element).2.isMember shape element := by
  obtain ⟨z, hz, on⟩ := (Option.any_eq_true ..).mp active
  simp only [check, hz]
  rcases checkZone_cases w shape element z with ⟨h, enters, _⟩ | ⟨l, _, _, _, _, h⟩ | ⟨_, out, _⟩
  · rw [h]
    simpa [isMember, hz] using enters on apart opened inside
  · rw [h, announce_isMember]
    refine (modifyZone_isMember w shape element _).trans ?_
    simp [hz, Table.contains]
  · exact absurd inside (by simp [out])

/-- Nobody moves from `w` to `u`, and no membership goes stale. -/
structure Swept (w u : World) : Prop where
  find? : ∀ a, u.store.find? a = w.store.find? a
  isActive : ∀ shape, u.isActive shape = w.isActive shape
  stale : ∀ {shape element}, u.Stale shape element → w.Stale shape element

theorem Swept.refl (w : World) : Swept w w := ⟨fun _ => rfl, fun _ => rfl, id⟩

theorem Swept.trans (h : Swept w u) (h' : Swept u v) : Swept w v where
  find? a := (h'.find? a).trans (h.find? a)
  isActive s := (h'.isActive s).trans (h.isActive s)
  stale := h.stale ∘ h'.stale

theorem Swept.type? (h : Swept w u) (a : ElementId) : u.store.type? a = w.store.type? a := by
  unfold Store.type?
  rw [h.find?]

theorem check_idle {s e : ElementId} (idle : ¬ w.isActive s ∨ e = s) : (w.check s e).2 = w := by
  unfold check
  split
  · rfl
  · next z hz =>
    have off : ¬ z.enabled ∨ e = s := by simpa [isActive, hz] using idle
    dsimp only
    unfold checkZone
    rw [if_pos off]

theorem check_swept (w : World) (s e : ElementId) : Swept w (w.check s e).2 where
  find? := check_find? w s e
  isActive _ := check_isActive w s e
  stale {shape element} h := by
    by_cases same : s = shape ∧ e = element
    · obtain ⟨rfl, rfl⟩ := same
      by_cases idle : ¬ w.isActive s ∨ e = s
      · rwa [check_idle idle] at h
      · rw [not_or, not_not] at idle
        exact absurd h (check_not_stale idle.1 idle.2)
    · refine ⟨?_, ?_⟩
      · rw [← check_isMember w s e same]
        exact h.1
      · rw [← isInside_congr (check_find? w s e)]
        exact h.2

theorem checkAll_swept (pairs : List (ElementId × ElementId)) (w : World) :
    Swept w (w.checkAll pairs).2 := checkAll_lifts .refl .trans check_swept pairs w

theorem sweep_swept (w : World) (shape : ElementId) : Swept w (w.sweep shape).2 :=
  sweep_lifts .refl .trans check_swept w shape

theorem pass_swept (shapes : List ElementId) (w : World) : Swept w (runPass.pass shapes w).2 :=
  pass_lifts .refl .trans check_swept shapes w

theorem checkAll_not_stale {pairs : List (ElementId × ElementId)} (hin : (shape, element) ∈ pairs)
    (active : w.isActive shape) (apart : element ≠ shape) :
    ¬ (w.checkAll pairs).2.Stale shape element := by
  induction pairs generalizing w with
  | nil => cases hin
  | cons pair pairs ih =>
    cases hin with
    | head => exact fun stale => check_not_stale active apart ((checkAll_swept pairs _).stale stale)
    | tail _ hin => exact ih hin (((check_swept w pair.1 pair.2).isActive shape).trans active)

theorem checkAll_isMember {pairs : List (ElementId × ElementId)} (hin : (shape, element) ∉ pairs)
    (w : World) : (w.checkAll pairs).2.isMember shape element = w.isMember shape element := by
  induction pairs generalizing w with
  | nil => rfl
  | cons pair pairs ih =>
    refine (ih (fun h => hin (List.mem_cons_of_mem _ h)) _).trans (check_isMember w _ _ ?_)
    rintro ⟨rfl, rfl⟩
    exact hin List.mem_cons_self

/-- A member is checked again wherever it is, unless it is a shape itself. -/
theorem mem_candidates {z : Zone} (hz : w.zones.find? shape = some z)
    (type : w.store.type? shape = some .shape) (member : w.isMember shape element)
    (other : w.store.type? element ≠ some .shape) : element ∈ w.candidates shape z := by
  obtain ⟨s, hs, kind⟩ := Option.map_eq_some_iff.mp type
  have shaped : ∃ geometry, s.shape? = some geometry := by
    unfold Element.type ElementKind.type at kind
    unfold Element.shape?
    split at kind <;> simp_all
  obtain ⟨geometry, hg⟩ := shaped
  have listed : z.members.contains element := by simpa [isMember, hz] using member
  simp only [candidates, hs, hg]
  refine List.mem_filter.mpr ⟨IdSet.mem_toList.mpr (IdSet.mem_foldl_add.mpr (.inl ?_)), ?_⟩
  · exact List.mem_append_right _ (Table.mem_keys.mpr listed)
  · exact decide_eq_true other

theorem type_of_mem_candidates {z : Zone} (h : element ∈ w.candidates shape z) :
    w.store.type? element ≠ some .shape := by
  unfold candidates at h
  split at h
  · cases h
  · split at h
    · cases h
    · exact of_decide_eq_true (List.mem_filter.mp h).2

theorem sweep_not_stale (active : w.isActive shape) (type : w.store.type? shape = some .shape)
    (other : w.store.type? element ≠ some .shape) : ¬ (w.sweep shape).2.Stale shape element := by
  rcases sweep_cases w shape with ⟨_, idle⟩ | ⟨z, hz, h⟩
  · exact absurd active idle
  · intro stale
    have member := ((sweep_swept w shape).stale stale).1
    rw [h] at stale
    have hin := List.mem_map_of_mem (f := fun id => (shape, id)) (mem_candidates hz type member other)
    have apart : element ≠ shape := fun same => other (same ▸ type)
    exact checkAll_not_stale hin active apart stale

theorem sweep_isMember (type : w.store.type? element = some .shape) (s : ElementId) :
    (w.sweep s).2.isMember shape element = w.isMember shape element := by
  rcases sweep_cases w s with ⟨h, _⟩ | ⟨z, _, h⟩
  · rw [h]
  · rw [h]
    refine checkAll_isMember (fun hin => ?_) w
    obtain ⟨id, hid, pair⟩ := List.mem_map.mp hin
    cases pair
    exact type_of_mem_candidates hid type

theorem pass_not_stale {shapes : List ElementId} (hin : shape ∈ shapes)
    (active : w.isActive shape) (type : w.store.type? shape = some .shape)
    (other : w.store.type? element ≠ some .shape) :
    ¬ (runPass.pass shapes w).2.Stale shape element := by
  induction shapes generalizing w with
  | nil => cases hin
  | cons s shapes ih =>
    rw [pass_cons]
    cases hin with
    | head =>
      -- Its own turn puts the shape right, and no later turn undoes that.
      intro stale
      exact sweep_not_stale active type other ((pass_swept shapes _).stale stale)
    | tail _ hin =>
      have swept := sweep_swept w s
      refine ih hin ((swept.isActive shape).trans active) ?_ ?_
      · rwa [swept.type?]
      · rwa [swept.type?]

theorem pass_isMember (type : w.store.type? element = some .shape) (shapes : List ElementId) :
    (runPass.pass shapes w).2.isMember shape element = w.isMember shape element := by
  induction shapes generalizing w with
  | nil => rfl
  | cons s shapes ih =>
    rw [pass_cons]
    exact (ih (((sweep_swept w s).type? element).trans type)).trans (sweep_isMember type s)

theorem runPass_stale_iff (h : w.Settled) (active : w.isActive shape) (element : ElementId) :
    w.runPass.2.Stale shape element ↔
      w.Stale shape element ∧ w.store.type? element = some .shape := by
  have swept : Swept w w.runPass.2 := pass_swept _ w
  obtain ⟨z, hz, _⟩ := (Option.any_eq_true ..).mp active
  have tracked : w.tracks shape := tracks_iff.mpr ⟨z, hz⟩
  constructor
  · intro stale
    refine ⟨swept.stale stale, ?_⟩
    by_contra other
    exact pass_not_stale (Table.mem_keys.mpr tracked) active (h.typed shape tracked) other stale
  · rintro ⟨⟨member, outside⟩, type⟩
    refine ⟨?_, ?_⟩
    · exact (pass_isMember type _).trans member
    · rwa [isInside_congr swept.find?]

theorem shape_left_behind (h : w.Settled) (active : w.isActive shape) (apart : element ≠ shape)
    (type : w.store.type? element = some .shape) (inside : w.isInside shape element) {edit : Edit}
    (moved : u = (w.perform (.check shape element)).perform (.store (.update element edit)))
    (outside : ¬ u.isInside shape element) :
    u.runPass.2.Stale shape element := by
  have checked : (w.perform (.check shape element)).Settled := h.perform trivial
  have settled : u.Settled := moved ▸ checked.perform trivial
  have swept := check_swept w shape element
  have member : u.isMember shape element := by
    rw [moved]
    exact check_enters active apart (h.opened element) inside
  have active' : u.isActive shape := by
    rw [moved]
    exact (swept.isActive shape).trans active
  have type' : u.store.type? element = some .shape := by
    have before : (w.perform (.check shape element)).store.type? element = some .shape :=
      (swept.type? element).trans type
    have live : (w.perform (.check shape element)).store.contains element :=
      contains_iff_type?.mpr ⟨_, before⟩
    rw [moved]
    exact ((Store.perform_effect checked.linked _).type?_of_live live).trans before
  exact (runPass_stale_iff settled active' element).mpr ⟨⟨member, outside⟩, type'⟩

/-- In every world that can be reached, what a pass leaves stale was stale before, and is the
membership of one shape in another. -/
theorem run_pass_stale_iff (cellSize : Single) (ids : IdSource) (root : ElementId) (ops : List Op)
    (fair : FairRun (fresh cellSize ids root) ops) (shape element : ElementId) :
    let w := (fresh cellSize ids root).run ops
    w.runPass.2.isActive shape ∧ w.runPass.2.Stale shape element ↔
      w.isActive shape ∧ w.Stale shape element ∧ w.store.type? element = some .shape := by
  intro w
  have settled : w.Settled := (fresh_settled cellSize ids root).run fair
  have swept : Swept w w.runPass.2 := pass_swept _ w
  rw [swept.isActive]
  exact and_congr_right fun active => runPass_stale_iff settled active element

def excursion : List Op :=
  [.createShape (.sphere (.ofNat 10)) .zero, .createShape (.sphere .one) .zero, .check ⟨1⟩ ⟨2⟩,
    .store (.update ⟨2⟩ ⟨({ · with position := ⟨.ofNat 1000, .zero, .zero⟩ }),
      fun _ => rfl, fun _ _ _ => Iff.rfl⟩)]

theorem excursion_stale_iff :
    let w := (fresh Grid.defaultCellSize (.counter 1) ⟨0⟩).run excursion
    FairRun (fresh Grid.defaultCellSize (.counter 1) ⟨0⟩) excursion ∧
      (w.runPass.2.isActive ⟨1⟩ ∧ w.runPass.2.Stale ⟨1⟩ ⟨2⟩ ↔
        w.isActive ⟨1⟩ ∧ w.Stale ⟨1⟩ ⟨2⟩ ∧ w.store.type? ⟨2⟩ = some .shape) := by
  have fair : FairRun (fresh Grid.defaultCellSize (.counter 1) ⟨0⟩) excursion :=
    ⟨trivial, trivial, trivial, trivial, trivial⟩
  exact ⟨fair, run_pass_stale_iff _ _ _ excursion fair ⟨1⟩ ⟨2⟩⟩

theorem sphere_left_behind :
    let w := ((fresh Grid.defaultCellSize (.counter 1) ⟨0⟩).run excursion).runPass.2
    w.isActive ⟨1⟩ ∧ w.isMember ⟨1⟩ ⟨2⟩ ∧ ¬ w.isInside ⟨1⟩ ⟨2⟩ := by decide

/-- So many crossings are published from `w` to `u`, and nothing else. -/
def Publishes (n : Nat) (w u : World) : Prop := ∃ told, u.events = w.events ++ told ∧
  told.length = n ∧ ∀ event ∈ told, ∃ c s e, event = Crossing.event s e c

theorem Publishes.none (w : World) : Publishes 0 w w := ⟨[], (List.append_nil _).symm, rfl, nofun⟩

theorem Publishes.trans {n m : Nat} (h : Publishes n w u) (h' : Publishes m u v) :
    Publishes (n + m) w v := by
  obtain ⟨first, events, rfl, crossings⟩ := h
  obtain ⟨second, events', rfl, crossings'⟩ := h'
  refine ⟨first ++ second, ?_, List.length_append, fun event hin => ?_⟩
  · rw [events', events, List.append_assoc]
  · exact (List.mem_append.mp hin).elim (crossings event) (crossings' event)

theorem checkZone_publishes (w : World) (s e : ElementId) (z : Zone) :
    Publishes (w.checkZone s e z).1.toList.length w (w.checkZone s e z).2 := by
  rcases checkZone_cases w s e z with ⟨h, _⟩ | ⟨l, _, _, _, _, h⟩ | ⟨sub, _, _, h⟩
  · rw [h]
    exact .none w
  · rw [h, announce_eq]
    exact ⟨_, rfl, rfl, fun event hin => ⟨_, s, e, List.mem_singleton.mp hin⟩⟩
  · rw [h, announce_eq]
    dsimp only
    rw [unwatch_events]
    exact ⟨_, rfl, rfl, fun event hin => ⟨_, s, e, List.mem_singleton.mp hin⟩⟩

theorem checkAll_publishes (pairs : List (ElementId × ElementId)) (w : World) :
    Publishes (w.checkAll pairs).1 w (w.checkAll pairs).2 := by
  induction pairs generalizing w with
  | nil => exact .none w
  | cons pair pairs ih =>
    obtain ⟨s, e⟩ := pair
    have rest := ih (w.check s e).2
    simp only [checkAll]
    cases hz : w.zones.find? s with
    | none => simpa [check, hz] using rest
    | some z =>
      have first := checkZone_publishes w s e z
      simp only [check, hz] at rest ⊢
      cases hc : (w.checkZone s e z).1 with
      | none =>
        rw [hc] at first
        simpa using first.trans rest
      | some c =>
        rw [hc] at first
        simpa [Nat.add_comm] using first.trans rest

theorem sweep_publishes (w : World) (s : ElementId) :
    Publishes (w.sweep s).1 w (w.sweep s).2 := by
  rcases sweep_cases w s with ⟨h, _⟩ | ⟨z, _, h⟩
  · rw [h]
    exact .none w
  · rw [h]
    exact checkAll_publishes _ w

theorem runPass_publishes (w : World) : Publishes w.runPass.1 w w.runPass.2 := by
  unfold runPass
  generalize w.zones.keys = shapes
  induction shapes generalizing w with
  | nil => exact .none w
  | cons s shapes ih => exact (sweep_publishes w s).trans (ih _)

end World
end SharedWorld
