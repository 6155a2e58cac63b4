import SharedWorld.Proofs.Store.Lifetime
import SharedWorld.Proofs.Store.Rewiring
import SharedWorld.Proofs.Store.Vehicles

/-! Every operation leaves a linked store linked, and the elements of a linked store are a tree. -/
namespace SharedWorld.Store
variable {s t : Store}

theorem parent?_eq_iff {a : ElementId} :
    t.parent? a = s.parent? a ↔ ∀ b, t.Refers .parent a b ↔ s.Refers .parent a b := by
  simp only [← parent?_eq_some]
  exact ⟨fun h b => by rw [h], Option.ext⟩

theorem parent?_eq_none {a : ElementId} : s.parent? a = none ↔ ∀ b, ¬ s.Refers .parent a b := by
  simp only [← parent?_eq_some]
  exact Option.eq_none_iff_forall_ne_some

theorem find?_withRoot (cellSize : Single) (ids : IdSource) (root a : ElementId) :
    (withRoot cellSize ids root).find? a =
      if a = root then some { kind := .root, id := root } else none := by
  unfold find? withRoot
  rw [Table.find?_insert]
  split <;> simp

theorem not_refers_withRoot (cellSize : Single) (ids : IdSource) (root : ElementId) (tie : Tie)
    (a b : ElementId) : ¬ (withRoot cellSize ids root).Refers tie a b := by
  unfold Refers
  rw [find?_withRoot]
  split
  · cases tie with
    | child | attached => simpa [Element.Refers] using IdSet.not_mem_empty b
    | _ => simp [Element.Refers, Element.target?, ElementKind.reference?]
  · simp

namespace Linked

theorem withRoot (cellSize : Single) (ids : IdSource) (root : ElementId) :
    (withRoot cellSize ids root).Linked where
  rooted := by
    unfold type?
    rw [find?_withRoot]
    exact congrArg (Option.map Element.type) (if_pos rfl)
  answered _ h := (not_refers_withRoot _ _ _ _ _ _ h).elim
  top b h := not_refers_withRoot _ _ _ _ _ _ h
  hung := by
    intro a ha hr
    obtain ⟨e, he⟩ := contains_iff.mp ha
    rw [find?_withRoot] at he
    exact absurd ((if_neg hr).symm.trans he) nofun
  grounded _ := .top (parent?_eq_none.mpr fun _ h => not_refers_withRoot _ _ _ _ _ _ h)

theorem of_rewired (ok : s.Linked) {R : Tie → ElementId → ElementId → Prop} (h : Rewired s t R)
    (answered : ∀ {tie a b}, tie ≠ .seat → R tie a b → R tie.inverse b a)
    (tree : ∀ a b, R .parent a b ↔ s.Refers .parent a b) : t.Linked where
  rooted := by rw [h.root, h.type?, ok.rooted]
  answered ht hab := (h.refers _ _ _).mpr (answered ht ((h.refers _ _ _).mp hab))
  top b hb := by
    rw [h.root, h.refers, tree] at hb
    exact ok.top b hb
  hung ha hr := by
    rw [h.root] at hr
    obtain ⟨b, hb⟩ := ok.hung ((h.contains _).mp ha) hr
    exact ⟨b, by rwa [h.refers, tree]⟩
  grounded a := (ok.grounded a).of_agree fun b =>
    .inr (parent?_eq_iff.mpr fun c => (h.refers _ _ _).trans (tree b c))

theorem of_quiet (ok : s.Linked) (h : Quiet s t) : t.Linked :=
  ok.of_rewired h ok.answered fun _ _ => Iff.rfl

theorem of_moved (ok : s.Linked) {child parent : ElementId} (hroot : child ≠ s.root)
    (apart : ∀ n, climb s.parent? n parent ≠ some child)
    (h : Rewired s t (s.relink .parent child (some parent))) : t.Linked := by
  have moved (a b) : t.Refers .parent a b ↔
      (a = child ∧ parent = b) ∨ (a ≠ child ∧ s.Refers .parent a b) := by
    rw [h.refers]
    simp [relink, Tie.inverse, Tie.IsSingle]
  have same {a} (ha : a ≠ child) : t.parent? a = s.parent? a :=
    parent?_eq_iff.mpr fun b => by simp [moved, ha]
  refine ⟨by rw [h.root, h.type?, ok.rooted], fun ht hab => ?_, fun b hb => ?_, fun {a} ha hr => ?_,
    fun a => ?_⟩
  · rw [h.refers] at hab ⊢
    exact relink_answered ok (by decide) ht hab
  · rw [h.root, moved] at hb
    rcases hb with ⟨hc, _⟩ | ⟨_, hb⟩
    · exact hroot hc.symm
    · exact ok.top b hb
  · by_cases hc : a = child
    · exact ⟨parent, (moved _ _).mpr (.inl ⟨hc, rfl⟩)⟩
    · rw [h.root] at hr
      obtain ⟨b, hb⟩ := ok.hung ((h.contains _).mp ha) hr
      exact ⟨b, (moved _ _).mpr (.inr ⟨hc, hb⟩)⟩
  · have clear (w) (hw : some parent = some w) : ∀ n, climb s.parent? n w ≠ some child := by
      cases hw
      exact apart
    refine Grounded.of_relink ok.grounded clear (fun w hw => ?_) (fun b hb => .inl (same hb)) a
    rcases (moved _ _).mp (parent?_eq_some.mp hw) with ⟨_, there⟩ | ⟨other, _⟩
    · exact congrArg some there
    · exact absurd rfl other

theorem of_placed (ok : s.Linked) {id : ElementId} {type : ElementType} (h : Placed s id type t) :
    t.Linked := by
  have other : s.root ≠ id := fun he => h.free (he ▸ ok.root_live)
  have same {a} (ha : a ≠ id) : t.parent? a = s.parent? a :=
    parent?_eq_iff.mpr fun b => by simp [h.refers, ha]
  have below : t.Refers .parent id s.root := by simp [h.refers]
  have top (b) : ¬ t.Refers .parent s.root b := by simp [h.refers, other, ok.top b]
  refine ⟨?_, fun {tie a b} ht hab => ?_, fun b => ?_, fun {a} ha hr => ?_, fun a => ?_⟩
  · rw [h.root, h.type?, if_neg other, ok.rooted]
  · rw [h.refers] at hab ⊢
    rcases hab with hab | ⟨rfl, rfl, rfl⟩ | ⟨rfl, rfl, rfl⟩
    · exact .inl (ok.answered ht hab)
    · exact .inr (.inr ⟨rfl, rfl, rfl⟩)
    · exact .inr (.inl ⟨rfl, rfl, rfl⟩)
  · rw [h.root]
    exact top b
  · by_cases hid : a = id
    · exact ⟨s.root, hid ▸ below⟩
    · rw [contains_iff_type?, h.type?, if_neg hid, ← contains_iff_type?] at ha
      rw [h.root] at hr
      obtain ⟨b, hb⟩ := ok.hung ha hr
      exact ⟨b, (h.refers ..).mpr (.inl hb)⟩
  · refine (ok.grounded a).of_agree fun b => ?_
    by_cases hb : b = id
    · have up : t.Refers .parent b s.root := hb ▸ below
      exact .inl (.step (parent?_eq_some.mpr up) (.top (parent?_eq_none.mpr top)))
    · exact .inr (same hb)

theorem of_evicted (ok : s.Linked) {id : ElementId} (hroot : id ≠ s.root) (h : Evicted s id t) :
    t.Linked := by
  have refers (tie a b) : t.Refers tie a b ↔ a ≠ id ∧ s.unlinked id tie a b := h.refers tie a b
  have top (b) : ¬ t.Refers .parent s.root b := by
    rw [refers]
    rintro ⟨_, ⟨hb, _⟩ | ⟨hb, _⟩⟩ <;> exact ok.top _ hb
  refine ⟨?_, fun {tie a b} ht hab => ?_, fun b => ?_, fun {a} ha hr => ?_, fun a => ?_⟩
  · rw [h.root, h.type?, if_neg hroot.symm, ok.rooted]
  · rw [refers] at hab ⊢
    obtain ⟨ha, hab⟩ := hab
    cases tie with
    | parent =>
      rcases hab with ⟨hab, hb⟩ | ⟨hab, rfl⟩
      · exact ⟨hb, .inl ⟨ok.child_iff.mpr hab, ha⟩⟩
      · exact ⟨hroot.symm, .inr ⟨rfl, ok.child_iff.mpr hab⟩⟩
    | child =>
      rcases hab with ⟨hab, hb⟩ | ⟨rfl, hab⟩
      · exact ⟨hb, .inl ⟨ok.child_iff.mp hab, ha⟩⟩
      · refine ⟨?_, .inr ⟨ok.child_iff.mp hab, rfl⟩⟩
        rintro rfl
        exact ok.no_own_parent b (ok.child_iff.mp hab)
    | driver => exact ⟨hab.2, ok.seat_of_driver hab.1, fun h => ha h.1⟩
    | seat => exact absurd rfl ht
    | target | attached | towing | towedBy => exact ⟨hab.2, ok.answered ht hab.1, ha⟩
  · rw [h.root]
    exact top b
  · rw [contains_iff_type?, h.type?] at ha
    split at ha
    · simp at ha
    · next hid =>
      rw [← contains_iff_type?] at ha
      rw [h.root] at hr
      obtain ⟨b, hb⟩ := ok.hung ha hr
      by_cases hbid : b = id
      · exact ⟨s.root, (refers ..).mpr ⟨hid, .inr ⟨hbid ▸ hb, rfl⟩⟩⟩
      · exact ⟨b, (refers ..).mpr ⟨hid, .inl ⟨hb, hbid⟩⟩⟩
  · refine (ok.grounded a).of_agree fun b => ?_
    by_cases hb : b = id
    · exact .inl (.top (parent?_eq_none.mpr fun c hc => ((refers ..).mp hc).1 hb))
    · by_cases hid : s.Refers .parent b id
      · have up : t.Refers .parent b s.root := (refers ..).mpr ⟨hb, .inr ⟨hid, rfl⟩⟩
        exact .inl (.step (parent?_eq_some.mpr up) (.top (parent?_eq_none.mpr top)))
      · refine .inr (parent?_eq_iff.mpr fun c => ?_)
        have : s.Refers .parent b c → c ≠ id := fun h hc => hid (hc ▸ h)
        simp [refers, unlinked, hb, hid]
        tauto

end Linked

/-- The elements are one tree below the root, and both sides of each edge say so. -/
structure IsTree (s : Store) : Prop where
  root_live : s.contains s.root
  root_top : s.parent? s.root = none
  hung : ∀ a, s.contains a → a ≠ s.root → ∃ b, s.parent? a = some b ∧ s.contains b
  sides : ∀ a b, s.contains a → s.contains b → (b ∈ s.children a ↔ s.parent? b = some a)
  chain : ∀ a, s.contains a → ∃ n, n < s.size ∧ climb s.parent? n a = some s.root
  no_cycle : ∀ n a, climb s.parent? (n + 1) a ≠ some a
  -- the walk that looks for an ancestor is never cut short
  walk : ∀ a goal, s.contains a →
    (reaches s.parent? goal (s.size + 1) a ↔ ∃ n, climb s.parent? n a = some goal)

theorem Linked.isTree (ok : s.Linked) : s.IsTree where
  root_live := ok.root_live
  root_top := parent?_eq_none.mpr ok.top
  hung a ha hr := by
    obtain ⟨b, hb⟩ := ok.hung ha hr
    exact ⟨b, parent?_eq_some.mpr hb, ok.live_of_refers hb nofun⟩
  sides a b _ _ := by rw [mem_children, ok.child_iff, parent?_eq_some]
  chain a ha := by
    obtain ⟨n, b, hn, hb, top⟩ := Grounded.summit (ok.climb_size ha)
    have live : s.contains b := by
      cases n with
      | zero => exact Option.some.inj hb ▸ ha
      | succ n =>
        rw [climb_succ] at hb
        obtain ⟨c, _, hc⟩ := Option.bind_eq_some_iff.mp hb
        exact ok.live_of_refers (parent?_eq_some.mp hc) nofun
    have root : b = s.root := by
      by_contra hr
      obtain ⟨c, hc⟩ := ok.hung live hr
      rw [parent?_eq_some.mpr hc] at top
      cases top
    exact ⟨n, hn, root ▸ hb⟩
  no_cycle n a := (ok.grounded a).no_return n
  walk a _ _ := ok.reaches_iff (show Tie.parent.IsSingle by decide) (by decide) (ok.grounded a)

end SharedWorld.Store
