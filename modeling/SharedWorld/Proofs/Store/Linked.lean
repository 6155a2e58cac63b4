import SharedWorld.Proofs.Climb
import SharedWorld.Proofs.Store.Refers

/-! References with two sides. In a store that is linked every reference is answered by one from the
other side, except that a vehicle does not know its passengers, and all elements hang below the
root. -/
namespace SharedWorld

theorem Tie.inverse_inverse (t : Tie) : t.inverse.inverse = t := by cases t <;> rfl

namespace Store
variable {s t : Store}

structure Linked (s : Store) : Prop where
  rooted : s.type? s.root = some .root
  answered : ∀ {tie a b}, tie ≠ .seat → s.Refers tie a b → s.Refers tie.inverse b a
  top : ∀ b, ¬ s.Refers .parent s.root b
  hung : ∀ {a}, s.contains a → a ≠ s.root → ∃ b, s.Refers .parent a b
  grounded : ∀ a, Grounded s.parent? a

namespace Linked

theorem root_live (ok : s.Linked) : s.contains s.root := contains_iff_type?.mpr ⟨_, ok.rooted⟩

theorem live_of_refers (ok : s.Linked) {tie : Tie} {a b : ElementId} (h : s.Refers tie a b)
    (ht : tie ≠ .seat) : s.contains b := (ok.answered ht h).contains

theorem child_iff (ok : s.Linked) {a b : ElementId} :
    s.Refers .child a b ↔ s.Refers .parent b a :=
  ⟨ok.answered (by decide), ok.answered (by decide)⟩

theorem attached_iff (ok : s.Linked) {a b : ElementId} :
    s.Refers .attached a b ↔ s.Refers .target b a :=
  ⟨ok.answered (by decide), ok.answered (by decide)⟩

theorem towing_iff (ok : s.Linked) {a b : ElementId} :
    s.Refers .towing a b ↔ s.Refers .towedBy b a :=
  ⟨ok.answered (by decide), ok.answered (by decide)⟩

theorem seat_of_driver (ok : s.Linked) {a b : ElementId} (h : s.Refers .driver a b) :
    s.Refers .seat b a := ok.answered (by decide) h

theorem no_own_parent (ok : s.Linked) (a : ElementId) : ¬ s.Refers .parent a a := by
  intro h
  apply (ok.grounded a).no_return 0
  simp [climb, parent?_eq_some.mpr h]

theorem climb_reference (ok : s.Linked) {tie : Tie} (single : tie.IsSingle) (seat : tie ≠ .seat)
    {a : ElementId} (up : Grounded (s.reference? tie) a) (h : s.contains a) :
    climb (s.reference? tie) s.size a = none := by
  have keys (b : ElementId) : b ∈ s.residents.keys ↔ s.contains b := Table.mem_keys
  rw [← show s.residents.keys.length = s.size from Table.keys_length _]
  refine up.climb_length ((keys a).mpr h) fun b c hc => (keys c).mpr ?_
  exact ok.live_of_refers ((reference?_eq_some single).mp hc) seat

theorem climb_size (ok : s.Linked) {a : ElementId} (h : s.contains a) :
    climb s.parent? s.size a = none :=
  ok.climb_reference (show Tie.parent.IsSingle by decide) (by decide) (ok.grounded a) h

theorem not_above (ok : s.Linked) {tie : Tie} (single : tie.IsSingle) (seat : tie ≠ .seat)
    {a b : ElementId} (up : Grounded (s.reference? tie) b)
    (h : ¬ reaches (s.reference? tie) a (s.size + 1) b) (n : Nat) :
    climb (s.reference? tie) n b ≠ some a := by
  have ends : climb (s.reference? tie) (s.size + 1) b = none := by
    by_cases hb : s.contains b
    · exact climb_none_mono (ok.climb_reference single seat up hb) (Nat.le_succ _)
    · have top : s.reference? tie b = none :=
        (reference?_eq_none single).mpr fun c hc => hb hc.contains
      simp [climb, top]
  intro hn
  by_cases hl : n < s.size + 1
  · exact h (Store.reaches_iff.mpr ⟨n, hl, hn⟩)
  · rw [climb_none_mono ends (Nat.not_lt.mp hl)] at hn
    cases hn

theorem reaches_iff (ok : s.Linked) {tie : Tie} (single : tie.IsSingle) (seat : tie ≠ .seat)
    {a b : ElementId} (up : Grounded (s.reference? tie) b) :
    reaches (s.reference? tie) a (s.size + 1) b ↔ ∃ n, climb (s.reference? tie) n b = some a := by
  constructor
  · intro found
    obtain ⟨n, _, hn⟩ := Store.reaches_iff.mp found
    exact ⟨n, hn⟩
  · rintro ⟨n, hn⟩
    by_contra missed
    exact ok.not_above single seat up missed n hn

end Linked

/-- The references once the one of `x` by way of `t` leads to `y`, or nowhere, and the other sides
have taken note. If the other side refers to one only, it lets go of any other. -/
def relink (s : Store) (t : Tie) (x : ElementId) (y : Option ElementId) (tie : Tie)
    (a b : ElementId) : Prop :=
  if tie = t then
    (a = x ∧ y = some b) ∨ (a ≠ x ∧ s.Refers t a b ∧ ¬ (t.inverse.IsSingle ∧ y = some b))
  else if tie = t.inverse then
    (b = x ∧ y = some a) ∨ (b ≠ x ∧ s.Refers t.inverse a b ∧ ¬ (t.inverse.IsSingle ∧ y = some a))
  else s.Refers tie a b

theorem relink_answered (ok : s.Linked) {r : Tie} (hr : r ≠ .seat ∧ r ≠ .driver) {x : ElementId}
    {y : Option ElementId} {tie : Tie} {a b : ElementId} (ht : tie ≠ .seat)
    (h : s.relink r x y tie a b) : s.relink r x y tie.inverse b a := by
  have hne : r.inverse ≠ r := by cases r <;> exact nofun
  have hs : r.inverse ≠ .seat := by cases r <;> simp_all [Tie.inverse]
  by_cases h1 : tie = r
  · subst h1
    simp only [relink, if_true, if_neg hne] at h ⊢
    exact h.imp id fun ⟨ha, h, hy⟩ => ⟨ha, ok.answered hr.1 h, hy⟩
  · by_cases h2 : tie = r.inverse
    · subst h2
      simp only [relink, if_true, if_neg hne, Tie.inverse_inverse] at h ⊢
      refine h.imp id fun ⟨ha, h, hy⟩ => ⟨ha, ?_, hy⟩
      simpa only [Tie.inverse_inverse] using ok.answered hs h
    · have h3 : tie.inverse ≠ r := fun e => h2 (by rw [← e, Tie.inverse_inverse])
      have h4 : tie.inverse ≠ r.inverse := fun e =>
        h1 (by rw [← Tie.inverse_inverse tie, e, Tie.inverse_inverse])
      simp only [relink, if_neg h1, if_neg h2, if_neg h3, if_neg h4] at h ⊢
      exact ok.answered ht h

theorem relink_same (ok : s.Linked) {r : Tie} (hr : r ≠ .seat ∧ r ≠ .driver ∧ r.IsSingle)
    {x : ElementId} {y : Option ElementId} (h : ∀ b, s.Refers r x b ↔ y = some b) (tie : Tie)
    (a b : ElementId) : s.Refers tie a b ↔ s.relink r x y tie a b := by
  have hs : r.inverse ≠ .seat := by cases r <;> simp_all [Tie.inverse]
  have hne : r.inverse ≠ r := by cases r <;> exact nofun
  have back {a b} (hab : s.Refers r.inverse a b) : s.Refers r b a := by
    simpa only [Tie.inverse_inverse] using ok.answered hs hab
  have there {a b} (hab : s.Refers r a b) : s.Refers r.inverse b a := ok.answered hr.1 hab
  by_cases h1 : tie = r
  · subst h1
    simp only [relink, if_true]
    by_cases ha : a = x
    · simp [ha, h]
    · simp only [ha, false_and, false_or, true_and, ne_eq, not_false_eq_true]
      refine (and_iff_left_of_imp fun hab hy => ha ?_).symm
      exact (there hab).unique (there ((h b).mpr hy.2)) hy.1
  · by_cases h2 : tie = r.inverse
    · subst h2
      simp only [relink, if_true, if_neg hne]
      by_cases hb : b = x
      · subst hb
        simp only [true_and, ne_eq, not_true_eq_false, false_and, or_false, ← h]
        exact ⟨back, there⟩
      · simp only [hb, false_and, false_or, true_and, ne_eq, not_false_eq_true]
        refine (and_iff_left_of_imp fun hab hy => hb ?_).symm
        exact hab.unique (there ((h a).mpr hy.2)) hy.1
    · simp only [relink, if_neg h1, if_neg h2]

-- A reference that is led elsewhere, seen from both sides.
section Relink
variable {r : Tie} {x y : ElementId} (single : r.IsSingle) (tied : Rewired s t (s.relink r x (some y)))
include single tied

theorem reference?_relinked : t.reference? r x = some y := by
  rw [reference?_eq_some single, tied.refers, relink, if_pos rfl]
  exact .inl ⟨rfl, rfl⟩

/-- The others refer to what they did, unless that can be referred to by one only and no longer is. -/
theorem reference?_relinked_aside {a : ElementId} (other : a ≠ x)
    (apart : r.inverse.IsSingle → s.reference? r a ≠ some y) : t.reference? r a = s.reference? r a := by
  refine Option.ext fun b => ?_
  rw [reference?_eq_some single, reference?_eq_some single, tied.refers, relink, if_pos rfl]
  constructor
  · rintro (⟨here, _⟩ | ⟨_, old, _⟩)
    · exact absurd here other
    · exact old
  · intro old
    refine .inr ⟨other, old, fun ⟨one, there⟩ => apart one ?_⟩
    exact there ▸ (reference?_eq_some single).mpr old

theorem reference?_relinked_displaced {a : ElementId} (other : a ≠ x) (one : r.inverse.IsSingle)
    (old : s.reference? r a = some y) : t.reference? r a = none := by
  rw [reference?_eq_none single]
  intro b hb
  rw [tied.refers, relink, if_pos rfl] at hb
  obtain ⟨here, _⟩ | ⟨_, there, apart⟩ := hb
  · exact other here
  · have same : b = y := there.unique ((reference?_eq_some single).mp old) single
    exact apart ⟨one, congrArg some same.symm⟩

end Relink

theorem relink_swap {r : Tie} (single : r.IsSingle) (one : r.inverse.IsSingle) {x y : ElementId}
    (tie : Tie) (a b : ElementId) :
    s.relink r x (some y) tie a b ↔ s.relink r.inverse y (some x) tie a b := by
  have turned : r.inverse ≠ r := by cases r <;> exact nofun
  unfold relink
  rw [Tie.inverse_inverse]
  by_cases here : tie = r
  · subst here
    simp only [if_true, if_neg turned.symm, single, true_and]
    grind
  · by_cases there : tie = r.inverse
    · subst there
      simp only [if_true, if_neg turned, one, true_and]
      grind
    · simp only [if_neg here, if_neg there]

end Store
end SharedWorld
