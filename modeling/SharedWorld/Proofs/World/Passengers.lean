import Mathlib.Data.List.Induction
import SharedWorld.Proofs.World.Run

/-! References that outlive what they name. A removal cuts every reference to the element but one: a
passenger who does not drive goes on sitting in a vehicle that is gone. -/
namespace SharedWorld

theorem Tie.inverse_heldBy (tie : Tie) : tie.inverse.heldBy = tie.asksFor := by cases tie <;> rfl

namespace Store
variable {s t u : Store}

/-- What is named is live, and of the type that such a reference asks for. -/
def Fits (s : Store) (tie : Tie) (b : ElementId) : Prop :=
  ∃ type, s.type? b = some type ∧ tie.asksFor.all (· = type)

def Sound (s : Store) : Prop := ∀ tie a b, s.Refers tie a b → s.Fits tie b

/-- A player who sits in a vehicle without driving it. -/
def Passenger (s : Store) (p v : ElementId) : Prop :=
  s.Refers .seat p v ∧ ¬ s.Refers .driver v p

/-- On the way from `s` to `t` a vehicle goes, but not all who sit in it. -/
def Strands (s t : Store) : Prop :=
  ∃ p v, s.Passenger p v ∧ s.contains v ∧ t.contains p ∧ ¬ t.contains v

theorem Linked.fits (ok : s.Linked) {tie : Tie} {a b : ElementId} (ht : tie ≠ .seat)
    (h : s.Refers tie a b) : s.Fits tie b := by
  obtain ⟨e, he, held⟩ := (ok.answered ht h).canHold
  rw [Tie.inverse_heldBy] at held
  exact ⟨e.type, by simp [type?, he], held⟩

theorem fits_seat {v : ElementId} : s.Fits .seat v ↔ s.type? v = some .vehicle := by
  simp [Fits, Tie.asksFor, eq_comm]

theorem Linked.sound_iff (ok : s.Linked) :
    s.Sound ↔ ∀ p v, s.Refers .seat p v → s.type? v = some .vehicle := by
  constructor
  · intro h p v hpv
    exact fits_seat.mp (h _ _ _ hpv)
  · intro h tie a b hab
    by_cases ht : tie = .seat
    · subst ht
      exact fits_seat.mpr (h a b hab)
    · exact ok.fits ht hab

/-- What is left of the seats and their drivers after some elements are gone. -/
structure Thinned (s t : Store) : Prop where
  type? : ∀ a, t.contains a → t.type? a = s.type? a
  driver : ∀ v p, t.Refers .driver v p ↔ s.Refers .driver v p ∧ t.contains v ∧ t.contains p
  seat : ∀ p v, t.Refers .seat p v ↔
    t.contains p ∧ s.Refers .seat p v ∧ ¬ (s.Refers .driver v p ∧ ¬ t.contains v)

theorem Thinned.contains (h : Thinned s t) {a : ElementId} (ha : t.contains a) : s.contains a := by
  have same := h.type? a ha
  rw [contains_iff_type?] at ha ⊢
  rwa [← same]

theorem Thinned.of_quiet (ok : s.Linked) (h : Quiet s t) : Thinned s t where
  type? a _ := h.type? a
  driver v p := by
    have live : s.Refers .driver v p → s.contains v ∧ s.contains p := fun hd =>
      ⟨hd.contains, ok.live_of_refers hd nofun⟩
    rw [h.refers, h.contains, h.contains]
    tauto
  seat p v := by
    have live : s.Refers .seat p v → s.contains p := Refers.contains
    have driven : s.Refers .driver v p → s.contains v := Refers.contains
    rw [h.refers, h.contains, h.contains]
    tauto

theorem Evicted.contains {id : ElementId} (h : Evicted s id t) (a : ElementId) :
    t.contains a ↔ a ≠ id ∧ s.contains a := by
  rw [contains_iff_type?, contains_iff_type?, h.type?]
  split <;> simp [*]

theorem Thinned.of_evicted (ok : s.Linked) {id : ElementId} (h : Evicted s id t) :
    Thinned s t where
  type? a ha := by rw [h.type?, if_neg ((h.contains a).mp ha).1]
  driver v p := by
    have live : s.Refers .driver v p → s.contains v ∧ s.contains p := fun hd =>
      ⟨hd.contains, ok.live_of_refers hd nofun⟩
    rw [h.refers, h.contains, h.contains]
    simp only [unlinked]
    tauto
  seat p v := by
    have live : s.Refers .seat p v → s.contains p := Refers.contains
    have driven : s.Refers .driver v p → s.contains v := Refers.contains
    rw [h.refers, h.contains, h.contains]
    by_cases hv : v = id
    · subst hv
      simp [unlinked]
      tauto
    · simp [unlinked, hv]
      tauto

theorem Thinned.trans (h : Thinned s t) (h' : Thinned t u) : Thinned s u where
  type? a ha := (h'.type? a ha).trans (h.type? a (h'.contains ha))
  driver v p := by
    have hv := @Thinned.contains t u h' v
    have hp := @Thinned.contains t u h' p
    rw [h'.driver, h.driver]
    tauto
  seat p v := by
    have hv := @Thinned.contains t u h' v
    have hp := @Thinned.contains t u h' p
    rw [h'.seat, h.seat, h.driver]
    tauto

theorem Removals.thinned (h : Removals s t) (ok : s.Linked) : Thinned s t := by
  induction h with
  | alike h => exact .of_quiet ok h.quiet
  | evict _ h => exact .of_evicted ok (evict_evicted ok h)
  | trans first _ ih ih' => exact (ih ok).trans (ih' (first.linked ok))

theorem Quiet.sound (h : Quiet s t) (sound : s.Sound) : t.Sound := by
  intro tie a b hab
  obtain ⟨type, live, asked⟩ := sound tie a b ((h.refers ..).mp hab)
  exact ⟨type, by rwa [h.type?], asked⟩

theorem Effect.type?_of_live (h : Effect s t) {a : ElementId} (ha : s.contains a) :
    t.type? a = s.type? a := by
  cases h with
  | placed id type h =>
    rw [h.type?, if_neg]
    rintro rfl
    exact h.free ha
  | quiet h | moved _ _ _ _ h | relinked _ _ _ _ _ h | redriven _ _ _ h | ridden _ _ _ h =>
    exact h.type? a

theorem Effect.contains (h : Effect s t) {a : ElementId} (ha : s.contains a) : t.contains a := by
  have same := h.type?_of_live ha
  rw [contains_iff_type?] at ha ⊢
  rwa [same]

theorem Effect.seat (h : Effect s t) {p v : ElementId} (hpv : t.Refers .seat p v) :
    s.Refers .seat p v ∨ s.type? v = some .vehicle := by
  cases h with
  | quiet h => exact .inl ((h.refers ..).mp hpv)
  | placed id type h => exact .inl (by simpa using (h.refers ..).mp hpv)
  | moved child parent _ _ h => exact .inl ((h.refers ..).mp hpv)
  | relinked tie kind a b _ h =>
    rcases kind with rfl | rfl <;> exact .inl ((h.refers ..).mp hpv)
  | redriven vehicle driver live h =>
    rcases (h.refers ..).mp hpv with ⟨_, rfl⟩ | ⟨_, hs, _⟩
    · exact .inr live
    · exact .inl hs
  | ridden player vehicle live h =>
    rcases (h.refers ..).mp hpv with ⟨_, hv⟩ | ⟨_, hs⟩
    · exact .inr (live v hv)
    · exact .inl hs

theorem Effect.sound (h : Effect s t) (ok : s.Linked) (sound : s.Sound) : t.Sound := by
  rw [(h.linked ok).sound_iff]
  rw [ok.sound_iff] at sound
  intro p v hpv
  have vehicle : s.type? v = some .vehicle := (h.seat hpv).elim (sound p v) id
  have live : s.contains v := contains_iff_type?.mpr ⟨_, vehicle⟩
  rw [h.type?_of_live live, vehicle]

theorem Removals.sound_iff (h : Removals s t) (ok : s.Linked) (sound : s.Sound) :
    t.Sound ↔ ¬ Strands s t := by
  have thin := h.thinned ok
  rw [ok.sound_iff] at sound
  rw [(h.linked ok).sound_iff]
  constructor
  · rintro still ⟨p, v, ⟨sits, idle⟩, _, hp, hv⟩
    have left : t.Refers .seat p v := (thin.seat p v).mpr ⟨hp, sits, fun hd => idle hd.1⟩
    exact hv (contains_iff_type?.mpr ⟨_, still p v left⟩)
  · intro none p v hpv
    obtain ⟨hp, sits, rode⟩ := (thin.seat p v).mp hpv
    by_cases hv : t.contains v
    · rw [thin.type? v hv, sound p v sits]
    · have live : s.contains v := contains_iff_type?.mpr ⟨_, sound p v sits⟩
      exact absurd ⟨p, v, ⟨sits, fun hd => rode ⟨hd, hv⟩⟩, live, hp, hv⟩ none

end Store

open Store

namespace World

theorem perform_sound_iff {w : World} (ok : w.store.Linked) (sound : w.store.Sound) (op : Op) :
    (w.perform op).store.Sound ↔ ¬ Strands w.store (w.perform op).store := by
  rcases perform_effect ok op with h | ⟨t, out, h⟩
  · exact h.sound_iff ok sound
  · refine iff_of_true (h.sound (out.sound ok sound)) ?_
    rintro ⟨p, v, _, live, _, gone⟩
    exact gone ((h.contains v).mpr (out.contains live))

theorem run_append (w : World) (ops : List Op) (op : Op) :
    w.run (ops ++ [op]) = (w.run ops).perform op := by
  simp [run]

theorem run_sound_iff {w : World} (ok : w.store.Linked) (sound : w.store.Sound) (ops : List Op) :
    (∀ pre, pre <+: ops → (w.run pre).store.Sound) ↔
      ∀ pre op, pre ++ [op] <+: ops → ¬ Strands (w.run pre).store (w.run (pre ++ [op])).store := by
  constructor
  · intro always pre op hpre
    have before := always pre ((List.prefix_append _ _).trans hpre)
    rw [run_append, ← perform_sound_iff (run_linked ok pre).1 before op, ← run_append]
    exact always _ hpre
  · intro never pre hpre
    induction pre using List.reverseRecOn with
    | nil => exact sound
    | append_singleton pre op ih =>
      have before := ih ((List.prefix_append _ _).trans hpre)
      rw [run_append, perform_sound_iff (run_linked ok pre).1 before op, ← run_append]
      exact never pre op hpre

theorem fresh_sound (cellSize : Single) (ids : IdSource) (root : ElementId) :
    (fresh cellSize ids root).store.Sound := fun _ _ _ h =>
  (not_refers_withRoot _ _ _ _ _ _ h).elim

/-- After a removal nobody refers to the element but passengers, who are left behind. -/
theorem remove_refers_iff {w w' : World} (ok : w.store.Linked) {id : ElementId} {e : Element}
    (h : w.remove id = (.ok e, w')) (tie : Tie) (a : ElementId) :
    w'.store.Refers tie a id ↔
      tie = .seat ∧ w'.store.contains a ∧ w.store.Passenger a id := by
  obtain ⟨removed, ended⟩ := removeWithin_removals (w.store.size + 1) id w
  obtain ⟨notRoot, u, before, evicted⟩ := ended e (congrArg Prod.fst h)
  rw [show removeWithin (w.store.size + 1) id w = (.ok e, w') from h] at removed evicted
  have oku := before.linked ok
  have gone := evict_evicted oku evicted
  have away : ¬ w'.store.contains id := fun h => ((gone.contains id).mp h).1 rfl
  by_cases ht : tie = .seat
  · subst ht
    rw [(removed.thinned ok).seat]
    simp [Passenger, away]
  · rw [gone.refers]
    simp only [ht, false_and, iff_false, not_and]
    intro ha hid
    cases tie with
    | seat => exact ht rfl
    | parent =>
      rcases hid with ⟨_, h⟩ | ⟨_, h⟩
      · exact h rfl
      · exact notRoot (h.trans before.root)
    | child =>
      rcases hid with ⟨_, h⟩ | ⟨_, h⟩
      · exact h rfl
      · exact oku.no_own_parent id (oku.child_iff.mp h)
    | _ => exact hid.2 rfl

/-- In every world that can be reached, what is referred to is live and of the right type, except for
the vehicles of passengers who were left behind: a removal leaves those behind who do not drive, and
clears every other reference. -/
theorem run_references (cellSize : Single) (ids : IdSource) (root : ElementId) :
    (∀ ops id e w', ((fresh cellSize ids root).run ops).remove id = (.ok e, w') →
      ∀ tie a, w'.store.Refers tie a id ↔ tie = .seat ∧ w'.store.contains a ∧
        ((fresh cellSize ids root).run ops).store.Passenger a id) ∧
    (∀ ops tie a b, tie ≠ .seat → ((fresh cellSize ids root).run ops).store.Refers tie a b →
      ((fresh cellSize ids root).run ops).store.Fits tie b) ∧
    (∀ ops, (∀ pre, pre <+: ops → ((fresh cellSize ids root).run pre).store.Sound) ↔
      ∀ pre op, pre ++ [op] <+: ops → ¬ Strands ((fresh cellSize ids root).run pre).store
        ((fresh cellSize ids root).run (pre ++ [op])).store) := by
  have linked (ops) := (run_linked (fresh_linked cellSize ids root) ops).1
  refine ⟨fun ops id e w' h => ?_, fun ops tie a b ht h => ?_, fun ops => ?_⟩
  · exact remove_refers_iff (linked ops) h
  · exact (linked ops).fits ht h
  · exact run_sound_iff (fresh_linked ..) (fresh_sound _ _ _) ops

def outing : List Op :=
  [.store (.insert { kind := .vehicle { model := 411 } }),
    .store (.insert { kind := .player { endpoint := ⟨7⟩ } }),
    .store (.seatPassenger ⟨1⟩ ⟨2⟩)]

theorem passenger_left_behind :
    let w := (fresh Grid.defaultCellSize (.counter 1) ⟨0⟩).run outing
    ∃ e, (w.remove ⟨1⟩).1 = .ok e ∧ (w.remove ⟨1⟩).2.store.Refers .seat ⟨2⟩ ⟨1⟩ ∧
      ¬ (w.remove ⟨1⟩).2.store.contains ⟨1⟩ := by
  refine ⟨_, rfl, ⟨_, rfl, rfl⟩, by decide⟩

end World
end SharedWorld
