import SharedWorld.Proofs.Listeners.Stage

/-! Deliveries to listeners that change the registry meanwhile. All who were registered at the
beginning are told, each once and in order; nobody else is, except by a close in between, and there is
only one of those. -/
namespace SharedWorld.Listeners
namespace Stage
variable {κ α : Type} {s t u : Stage κ α} {direct more : List (κ × α)} {b : Behaviour κ α}

/-- From `s` to `t` just these were called, and the registry was not closed. -/
def Plain (direct : List (κ × α)) (s t : Stage κ α) : Prop :=
  ∃ deeds, t.log = s.log ++ deeds ∧ calls deeds = direct ∧ ∀ v, .closed v true ∉ deeds

/-- Some were called, and the last of them closed the registry; the close told those whom it found
there, and then the others were called. -/
def Interrupted (direct : List (κ × α)) (s t : Stage κ α) : Prop :=
  ∃ told rest v mid, direct = told ++ rest ∧ (told = [] → rest = []) ∧ mid.Kept ∧
    mid.registry.closed = false ∧ Plain told s mid ∧
    Plain (mid.registry.audience.map (·, v) ++ rest) (mid.close v) t

theorem Plain.refl : Plain [] s s := ⟨[], by simp [calls]⟩

theorem Plain.trans (h : Plain direct s t) (h' : Plain more t u) : Plain (direct ++ more) s u := by
  obtain ⟨ds, hs, rfl, open₁⟩ := h
  obtain ⟨es, ht, rfl, open₂⟩ := h'
  refine ⟨ds ++ es, by rw [ht, hs, List.append_assoc], calls_append .., fun v hv => ?_⟩
  exact (List.mem_append.mp hv).elim (open₁ v) (open₂ v)

theorem Plain.note {d : Deed κ α} (h : ∀ v, d ≠ .closed v true) : Plain (calls [d]) s (s.note d) :=
  ⟨[d], rfl, rfl, fun v hv => h v (List.mem_singleton.mp hv).symm⟩

theorem Plain.closed (h : Plain direct s t) (before : s.Kept) (after : t.Kept)
    (closed : s.registry.closed) : t.registry.closed := by
  obtain ⟨ds, ht, -⟩ := h
  obtain ⟨v, hv⟩ := before.closed.mp closed
  exact after.closed.mpr ⟨v, by rw [ht]; exact List.mem_append_left _ hv⟩

/-- What comes of deliveries that are due to call `direct`. -/
structure Delivered (direct : List (κ × α)) (s t : Stage κ α) : Prop where
  kept : t.Kept
  told : Plain direct s t ∨ Interrupted direct s t

theorem Delivered.plain (h : Delivered direct s t) (ok : s.Kept) (closed : s.registry.closed) :
    Plain direct s t := by
  rcases h.told with plain | ⟨_, _, _, mid, -, -, kept, still, before, -⟩
  · exact plain
  · exact absurd (before.closed ok kept closed) (by simp [still])

theorem Delivered.closed (h : Delivered direct s t) (ok : s.Kept) (closed : s.registry.closed) :
    t.registry.closed := (h.plain ok closed).closed ok h.kept closed

theorem close_closed (s : Stage κ α) (v : α) : (s.close v).registry.closed := by
  cases h : s.registry.closed with
  | true => rwa [close_shut h]
  | false => rw [close_first h]; rfl

theorem Delivered.trans (h : Delivered direct s t) (h' : Delivered more t u)
    (some : direct = [] → more = []) : Delivered (direct ++ more) s u := by
  refine ⟨h'.kept, ?_⟩
  rcases h.told with first | ⟨told, rest, v, mid, rfl, inside, kept, still, before, after⟩
  · rcases h'.told with second | ⟨told, rest, v, mid, rfl, inside, kept, still, before, after⟩
    · exact .inl (first.trans second)
    · refine .inr ⟨direct ++ told, rest, v, mid, by simp, fun none => ?_, kept, still,
        first.trans before, after⟩
      exact inside (List.append_eq_nil_iff.mp none).2
  · have closed := after.closed (kept.close v) h.kept (close_closed mid v)
    refine .inr ⟨told, rest ++ more, v, mid, by simp, fun none => ?_, kept, still, before, ?_⟩
    · have rest_nil := inside none
      rw [rest_nil, some (by rw [none, rest_nil]; rfl)]
      rfl
    · simpa using after.trans (h'.plain h.kept closed)

theorem Delivered.note {d : Deed κ α} (ok : s.Kept) (idle : d.Idle) :
    Delivered (calls [d]) s (s.note d) :=
  ⟨ok.note idle, .inl (.note fun v => by rintro rfl; cases idle)⟩

theorem follow_shut (tell tell' : α → List κ → Stage κ α → Stage κ α) (course : Course κ α)
    (closed : s.registry.closed) :
    follow tell course s = follow tell' course s ∧ (follow tell course s).registry.closed := by
  induction course generalizing s with
  | done => exact ⟨rfl, closed⟩
  | subscribe k next ih =>
    rw [follow, follow]
    exact ih _ (by rwa [subscribe_shut closed])
  | unsubscribe id next ih => exact ih _ closed
  | close v next ih =>
    have refused : s.registry.close.1 = none := by simp [Listeners.close, closed]
    rw [follow, follow, refused]
    exact ih false (close_closed s v)

end Stage

end SharedWorld.Listeners
