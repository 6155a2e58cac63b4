import SharedWorld.Proofs.Grid.Buckets
import SharedWorld.Proofs.Store.Followers

/-! What stands where it belongs is left alone. Once all that hangs on an element has been put to its
place, putting it there again writes what is there already, and the spatial index is told nothing new. -/
namespace SharedWorld
namespace Store
variable {s t : Store} {top : ElementId}

theorem modify_same {id : ElementId} {e : Element} {f : Element → Element}
    (he : s.find? id = some e) (same : f e = e) : s.modify id f = s := by
  obtain ⟨r, hr, rfl⟩ := Option.map_eq_some_iff.mp he
  have residents : (s.residents.modify id fun r => { r with element := f r.element }) = s.residents := by
    refine Table.ext_find? fun a => ?_
    rw [Table.find?_modify_eq]
    split
    · next here => simp [here, hr, same]
    · rfl
  unfold modify
  rw [residents]

theorem update_same {id : ElementId} {e : Element} {f : Element → Element}
    (he : s.find? id = some e) (same : f e = e) (noted : s.Noted id) : s.update id f = .ok s := by
  unfold update
  rw [he]
  dsimp only
  rw [modify_same he same, same]
  split
  · rfl
  · next moved =>
    obtain ⟨differs, notRoot⟩ := not_or.mp moved
    obtain still | root | known := noted e he
    · exact absurd still differs
    · exact absurd root notRoot
    · rw [Grid.upsert_same known]

/-- An element is where the one it is tied to holds it, and the spatial index knows. -/
def Settled (s : Store) (c x : ElementId) : Prop :=
  ∃ y e, s.find? c = some y ∧ s.find? x = some e ∧ e.heldAt y = e ∧ s.Noted x

theorem Held.settled {c x : ElementId} (h : Held s c x t) (live : s.contains x) : t.Settled c x := by
  obtain ⟨y, there, placed, noted⟩ := h
  obtain ⟨e, he⟩ := contains_iff.mp live
  rw [he] at placed
  exact ⟨y, e.heldAt y, there, placed, e.heldAt_heldAt y, noted⟩

theorem follow_settled {c x : ElementId} {y : Element} (hc : s.find? c = some y)
    (tied : s.target? x = some c) (settled : s.Settled c x) : s.follow c y x = some s := by
  obtain ⟨y', e, hy, he, stands, noted⟩ := settled
  cases hc.symm.trans hy
  obtain ⟨e', he', tie⟩ := Option.bind_eq_some_iff.mp tied
  cases he.symm.trans he'
  obtain ⟨a, ha, rfl⟩ := Option.map_eq_some_iff.mp tie
  have same : placed y a e = e := by simpa only [Element.heldAt, ha] using stands
  simp [follow, he, ha, update_same he same noted, Except.toOption]

theorem followAll_settled {c : ElementId} {y : Element} (hc : s.find? c = some y)
    {ids : List ElementId} (tied : ∀ x ∈ ids, s.target? x = some c)
    (settled : ∀ x ∈ ids, s.Settled c x) : s.followAll c y ids = (ids, s) := by
  induction ids with
  | nil => rfl
  | cons x ids ih =>
    have here := List.mem_cons_self (a := x) (l := ids)
    have rest := ih (fun z hz => tied z (List.mem_cons_of_mem x hz))
      fun z hz => settled z (List.mem_cons_of_mem x hz)
    unfold followAll
    rw [follow_settled hc (tied x here) (settled x here)]
    dsimp only
    rw [rest]

def AllSettled (s : Store) (top : ElementId) : Prop :=
  ∀ x c, s.Carries top x → s.target? x = some c → s.Settled c x

theorem propagateFrom_settled (ok : s.Linked) (settled : s.AllSettled top) (n : Nat)
    (visited : IdSet) {waiting : List ElementId} (below : ∀ x ∈ waiting, x = top ∨ s.Carries top x)
    (moved : Nat) : (propagateFrom n visited waiting moved s).2 = s := by
  -- Whatever waits hangs on `top`, so what a turn moves is where it belongs already.
  induction n generalizing visited waiting moved with
  | zero => rfl
  | succ n ih =>
    cases waiting with
    | nil => rfl
    | cons c waiting =>
      obtain ⟨here, rest⟩ := List.forall_mem_cons.mp below
      unfold propagateFrom
      split
      · exact ih _ rest _
      · split
        · exact ih _ rest _
        · next e he =>
          have tied (x) (hx : x ∈ e.attached.toList) : s.target? x = some c := by
            refine target?_eq_some.mpr (ok.attached_iff.mp ?_)
            rw [refers_of_find? he]
            exact IdSet.mem_toList.mp hx
          have carried (x) (hx : x ∈ e.attached.toList) : s.Carries top x :=
            here.elim (fun begun => begun ▸ .direct (tied x hx)) (·.trans (.direct (tied x hx)))
          have alone := followAll_settled he tied fun x hx => settled x c (carried x hx) (tied x hx)
          rw [alone]
          refine ih _ (fun x hx => ?_) _
          rcases List.mem_append.mp hx with new | old
          · exact .inr (carried x (List.mem_reverse.mp new))
          · exact rest x old

theorem propagate_settled (ok : s.Linked) (settled : s.AllSettled top) : (s.propagate top).2 = s :=
  propagateFrom_settled ok settled _ _ (fun _ hx => .inl (List.mem_singleton.mp hx)) _

theorem Propagated.allSettled (h : Propagated s top t) : t.AllSettled top := by
  intro x c carried hc
  rw [carries_congr h.quiet.target?] at carried
  rw [h.quiet.target?] at hc
  exact (h.held x c carried hc).settled carried.contains

end Store
end SharedWorld
