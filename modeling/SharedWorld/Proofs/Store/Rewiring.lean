import SharedWorld.Proofs.Store.Linked

/-! What each operation on relations makes of the references in a linked store. -/
namespace SharedWorld.Store
variable {s t : Store}

/-- The old reference is cut on the other side, unless it leads where the new one does, and the new
one is tied on both. -/
theorem relink_of_edits (ok : s.Linked) {r : Tie} (hr : r ≠ .seat ∧ r ≠ .driver)
    (several : ¬ r.inverse.IsSingle) {x : ElementId} {y : Option ElementId}
    (cut new : ElementId → Prop) (hcut : ∀ a, s.Refers r x a → cut a ∨ y = some a)
    (hnew : ∀ a, new a ↔ y = some a) (hx : s.CanHold r x) (tie : Tie) (a b : ElementId) :
    (((s.Refers tie a b ∧ ¬ (cut a ∧ tie = r.inverse ∧ b = x)) ∨
        (new a ∧ tie = r.inverse ∧ b = x)) ∧ ¬ (a = x ∧ tie = r)) ∨
      (a = x ∧ tie = r ∧ s.CanHold r a ∧ y = some b) ↔ s.relink r x y tie a b := by
  have hne : r ≠ r.inverse := by cases r <;> exact nofun
  unfold relink
  by_cases h1 : tie = r
  · subst h1
    by_cases ha : a = x
    · simp [ha, hx]
    · simp [hne, ha, several]
  · by_cases h2 : tie = r.inverse
    · subst h2
      simp only [if_true, h1, several, false_and, not_false_eq_true, and_true, true_and,
        and_false, or_false, hnew]
      by_cases hb : b = x
      · subst hb
        have hs : r.inverse ≠ .seat := by cases r <;> simp_all [Tie.inverse]
        have back (h : s.Refers r.inverse a b) : cut a ∨ y = some a :=
          hcut a (by simpa only [Tie.inverse_inverse] using ok.answered hs h)
        simp only [and_true, true_and, ne_eq, not_true_eq_false, false_and, or_false]
        tauto
      · simp [hb]
    · simp [h1, h2]

theorem setParent_rewired (ok : s.Linked) {child parent : ElementId}
    (h : s.setParent child parent = .ok t) :
    child ≠ s.root ∧ s.contains parent ∧ (∀ n, climb s.parent? n parent ≠ some child) ∧
      Rewired s t (s.relink .parent child (some parent)) := by
  unfold setParent at h
  split at h
  · cases h
  next hroot =>
  split at h
  · cases h
  next e he =>
  have hparent (b) : s.Refers .parent child b ↔ e.parent = some b := refers_of_find? he
  split at h
  · cases h
  next hlive =>
  have hlive : s.contains parent := by simpa using hlive
  split at h
  · next hsame =>
    cases h
    have hup : s.parent? child = some parent :=
      parent?_eq_some.mpr ((hparent parent).mpr hsame)
    refine ⟨hroot, hlive, fun n hn => ?_, (Quiet.refl s).congr ?_⟩
    · exact (ok.grounded child).no_return n (by simpa [climb, hup] using hn)
    · refine relink_same ok (by simp [Tie.IsSingle]) fun b => ?_
      rw [hparent, hsame]
  · next hnew =>
    split at h
    · cases h
    next hcycle =>
    cases h
    have apart := ok.not_above (show Tie.parent.IsSingle by decide) (by decide) (ok.grounded parent)
      hcycle
    refine ⟨hroot, hlive, apart, ?_⟩
    have h1 := modifyAll_cuts (Element.cuts_dropChild child) e.parent.toList s
    have h2 := h1.trans (modify_adds (Element.adds_addChild child) _ parent)
    have h3 := h2.trans (modify_sets (Element.sets_parent (some parent)) _ child)
    have hc : s.contains child := contains_iff.mpr ⟨e, he⟩
    have old (a) (h : s.Refers .parent child a) : a ∈ e.parent.toList ∨ some parent = some a :=
      .inl (Option.mem_toList.mpr ((hparent a).mp h))
    have new (a) : s.contains parent ∧ a = parent ↔ some parent = some a := by
      simp [hlive, eq_comm]
    refine h3.congr fun tie a b => ?_
    rw [h2.refers, h1.refers, h2.canHold, h1.contains]
    simpa only [and_assoc, Tie.inverse] using relink_of_edits ok (by simp)
      (by simp [Tie.inverse, Tie.IsSingle]) _ _ old new ((canHold_of_contains rfl).mpr hc) tie a b

theorem tame_placed (target : Element) (a : Attachment) : Element.Tame (placed target a) :=
  ⟨fun _ => rfl, fun _ tie _ => by cases tie <;> rfl⟩

theorem follow_quiet {targetId id : ElementId} {target : Element}
    (h : s.follow targetId target id = some t) : Quiet s t := by
  simp only [follow, Option.bind_eq_bind, Option.bind_eq_some_iff] at h
  obtain ⟨e, he, a, ha, h⟩ := h
  split at h
  · cases hu : s.update id (placed target a) with
    | error => simp [hu, Except.toOption] at h
    | ok s' =>
      simp only [hu, Except.toOption, Option.some.injEq] at h
      subst h
      exact update_rewired hu (modify_quiet (tame_placed target a) s id)
  · cases h

theorem followAll_quiet (targetId : ElementId) (target : Element) (ids : List ElementId)
    (s : Store) : Quiet s (s.followAll targetId target ids).2 := by
  induction ids generalizing s with
  | nil => exact Quiet.refl s
  | cons id rest ih =>
    unfold followAll
    split
    · exact ih s
    · next s' hs => exact (follow_quiet hs).trans (ih s')

theorem propagateFrom_quiet (n : Nat) (visited : IdSet) (waiting : List ElementId) (moved : Nat)
    (s : Store) : Quiet s (propagateFrom n visited waiting moved s).2 := by
  induction n generalizing visited waiting moved s with
  | zero => exact Quiet.refl s
  | succ n ih =>
    cases waiting with
    | nil => exact Quiet.refl s
    | cons current waiting =>
      unfold propagateFrom
      split
      · exact ih ..
      · split
        · exact ih ..
        · next e he =>
          exact (followAll_quiet current e e.attached.toList s).trans (ih ..)

theorem propagate_quiet (s : Store) (target : ElementId) : Quiet s (s.propagate target).2 :=
  propagateFrom_quiet ..

theorem attach_clear {element target : ElementId} {position rotation : Vec3}
    (h : s.attach element target position rotation = .ok t) :
    ¬ reaches (s.reference? .target) element (s.size + 1) target := by
  unfold attach at h
  split at h
  · cases h
  split at h
  · cases h
  split at h
  · cases h
  · assumption

theorem attach_rewired (ok : s.Linked) {element target : ElementId} {position rotation : Vec3}
    (h : s.attach element target position rotation = .ok t) :
    Rewired s t (s.relink .target element (some target)) := by
  unfold attach at h
  split at h
  · cases h
  next e he =>
  have htarget (b) : s.Refers .target element b ↔ e.target? = some b := refers_of_find? he
  split at h
  · cases h
  next hlive =>
  have hlive : s.contains target := by simpa using hlive
  split at h
  · cases h
  cases h
  have h1 := modifyAll_cuts (Element.cuts_dropAttached element)
    (e.target?.filter (· ≠ target)).toList s
  have h2 := h1.trans (modify_adds (Element.adds_addAttached element) _ target)
  have h3 := h2.trans (modify_sets (Element.sets_target (some ⟨target, position, rotation⟩)) _ element)
  have h4 := h3.trans (propagate_quiet _ target)
  have old (a) (h : s.Refers .target element a) :
      a ∈ (e.target?.filter (· ≠ target)).toList ∨ some target = some a := by
    rw [htarget] at h
    by_cases ha : a = target <;> simp [h, ha]
  have new (a) : s.contains target ∧ a = target ↔ some target = some a := by simp [hlive, eq_comm]
  refine h4.congr fun tie a b => ?_
  rw [h3.refers, h2.refers, h1.refers, h2.canHold, h1.contains]
  simpa only [and_assoc, Tie.inverse, Option.map_some] using relink_of_edits ok (by simp)
    (by simp [Tie.inverse, Tie.IsSingle]) _ _ old new ⟨e, he, rfl⟩ tie a b

theorem detach_rewired (ok : s.Linked) {element : ElementId} {answer : Bool}
    (h : s.detach element = .ok (answer, t)) : Rewired s t (s.relink .target element none) := by
  unfold detach at h
  split at h
  · cases h
  next e he =>
  have htarget (b) : s.Refers .target element b ↔ e.target? = some b := refers_of_find? he
  split at h
  · next hnone =>
    cases h
    exact (Quiet.refl s).congr (relink_same ok (by simp [Tie.IsSingle]) (by simp [htarget, hnone]))
  · next target ht =>
    cases h
    have h1 := modify_cuts (Element.cuts_dropAttached element) s target
    have h2 := h1.trans (modify_sets (Element.sets_target none) _ element)
    have old (a) (h : s.Refers .target element a) : a = target ∨ none = some a :=
      .inl (Option.some.inj (((htarget a).mp h).symm.trans ht))
    refine h2.congr fun tie a b => ?_
    rw [h1.refers, h1.canHold, ← relink_of_edits ok (by simp)
      (by simp [Tie.inverse, Tie.IsSingle]) _ (fun _ => False) old (by simp) ⟨e, he, rfl⟩]
    simp [Tie.inverse]

end SharedWorld.Store
