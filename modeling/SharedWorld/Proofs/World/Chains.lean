import SharedWorld.Proofs.World.Turns

/-! Attachments and tow pairs never close a ring: an operation that ties an element to another looks
first whether the other hangs on it already, and all else only cuts such references. -/
namespace SharedWorld.Store
variable {s t : Store}

/-- The way from an element to its target, and on from there, comes to an end; so does the way from
a vehicle to its tower. -/
def Untangled (s : Store) : Prop :=
  ∀ tie : Tie, tie = .target ∨ tie = .towedBy → ∀ a, Grounded (s.reference? tie) a

theorem reference?_of_fewer {tie : Tie} (single : tie.IsSingle) {a : ElementId}
    (fewer : ∀ b, t.Refers tie a b → s.Refers tie a b) :
    t.reference? tie a = s.reference? tie a ∨ t.reference? tie a = none := by
  cases h : t.reference? tie a with
  | none => exact .inr rfl
  | some b =>
    have there : s.Refers tie a b := fewer b ((reference?_eq_some single).mp h)
    exact .inl ((reference?_eq_some single).mpr there).symm

theorem Untangled.of_fewer (free : s.Untangled)
    (fewer : ∀ tie : Tie, tie = .target ∨ tie = .towedBy → ∀ a b, t.Refers tie a b →
      s.Refers tie a b) : t.Untangled := by
  intro tie kind a
  have single : tie.IsSingle := by rcases kind with rfl | rfl <;> decide
  exact (free tie kind a).of_agree_along fun _ b _ =>
    reference?_of_fewer single (fewer tie kind b)

theorem Untangled.of_quiet (free : s.Untangled) (h : Quiet s t) : t.Untangled :=
  free.of_fewer fun tie _ a b => (h.refers tie a b).mp

/-- One reference is led elsewhere, from where no way leads back. -/
theorem Untangled.of_relinked (free : s.Untangled) (ok : s.Linked) {tie : Tie}
    (kind : tie = .target ∨ tie = .towedBy) {x : ElementId} {y : Option ElementId}
    (clear : s.Clear tie x y) (h : Rewired s t (s.relink tie x y)) : t.Untangled := by
  have single : tie.IsSingle := by rcases kind with rfl | rfl <;> decide
  have seat : tie ≠ .seat := by rcases kind with rfl | rfl <;> decide
  have apart (w) (hw : y = some w) (n) : climb (s.reference? tie) n w ≠ some x := by
    -- The reference is an old one, or it was granted because no way leads back.
    rcases clear w hw with old | new
    · have up : s.reference? tie x = some w := (reference?_eq_some single).mpr old
      intro back
      exact (free tie kind x).no_return n (by simpa [climb, up] using back)
    · exact ok.not_above single seat (free tie kind w) new n
  have moved (a b) : t.Refers tie a b ↔ (a = x ∧ y = some b) ∨
      (a ≠ x ∧ s.Refers tie a b ∧ ¬ (tie.inverse.IsSingle ∧ y = some b)) := by
    rw [h.refers, relink, if_pos rfl]
  intro other hother a
  by_cases same : other = tie
  · subst same
    refine Grounded.of_relink (free other hother) apart (fun w hw => ?_) (fun b hb => ?_) a
    · rcases (moved x w).mp ((reference?_eq_some single).mp hw) with ⟨_, there⟩ | ⟨no, _⟩
      · exact there
      · exact absurd rfl no
    · refine reference?_of_fewer single fun c hc => ?_
      rcases (moved b c).mp hc with ⟨here, _⟩ | ⟨_, old, _⟩
      · exact absurd here hb
      · exact old
  · have single' : other.IsSingle := by rcases hother with rfl | rfl <;> decide
    refine (free other hother a).of_agree_along fun _ b _ =>
      reference?_of_fewer single' fun c hc => ?_
    rw [h.refers] at hc
    rcases kind with rfl | rfl <;> rcases hother with rfl | rfl
    · exact absurd rfl same
    · exact hc
    · exact hc
    · exact absurd rfl same

theorem Effect.untangled (h : Effect s t) (ok : s.Linked) (free : s.Untangled) : t.Untangled := by
  cases h with
  | quiet h => exact free.of_quiet h
  | placed id type h =>
    refine free.of_fewer fun tie kind a b hab => ?_
    rcases kind with rfl | rfl <;> simpa [h.refers] using hab
  | relinked tie kind a b clear h => exact free.of_relinked ok kind clear h
  | moved _ _ _ _ h | redriven _ _ _ h | ridden _ _ _ h =>
    refine free.of_fewer fun tie kind a b hab => ?_
    rw [h.refers] at hab
    rcases kind with rfl | rfl <;> exact hab

theorem Evicted.untangled {id : ElementId} (h : Evicted s id t) (free : s.Untangled) :
    t.Untangled := by
  refine free.of_fewer fun tie kind a b hab => ?_
  have left : s.unlinked id tie a b := ((h.refers tie a b).mp hab).2
  rcases kind with rfl | rfl <;> exact left.1

theorem Turn.untangled (ok : s.Linked) (h : Turn s t) (free : s.Untangled) : t.Untangled := by
  cases h with
  | alike h => exact free.of_quiet h.quiet
  | perform op => exact (perform_effect ok op).untangled ok free
  | reshape h => exact free.of_quiet h.quiet
  | evict notRoot h => exact (evict_evicted ok h).untangled free

theorem Turns.untangled (ok : s.Linked) (h : Turns s t) (free : s.Untangled) : t.Untangled :=
  h.keep ok Turn.untangled free

theorem untangled_withRoot (cellSize : Single) (ids : IdSource) (root : ElementId) :
    (withRoot cellSize ids root).Untangled := by
  intro tie kind a
  have single : tie.IsSingle := by rcases kind with rfl | rfl <;> decide
  exact .top ((reference?_eq_none single).mpr fun b hb => not_refers_withRoot _ _ _ _ _ _ hb)

end SharedWorld.Store
