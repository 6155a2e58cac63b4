import SharedWorld.Proofs.Realm.Attachments
import SharedWorld.Proofs.Realm.Indexes
import SharedWorld.Proofs.Store.Region
import SharedWorld.Proofs.Store.Settled
import SharedWorld.Proofs.Zone.Registry

/-! Moving what hangs on an element. Whatever has happened to a realm, the work comes to an end, counts
all that hangs on the element, directly or through others, puts each of them where its own target holds
it in the end, and does nothing else. Doing it again changes nothing. -/
namespace SharedWorld
namespace Store
variable {s t : Store} {top : ElementId}

/-- Elements that are all different, and that are all that hang on another. -/
structure Followers (s : Store) (top : ElementId) (ids : List ElementId) : Prop where
  once : ids.Nodup
  mem_iff : ∀ e, e ∈ ids ↔ s.Carries top e

theorem Followers.length_eq {ids others : List ElementId} (h : s.Followers top ids)
    (h' : t.Followers top others) (same : ∀ a, t.target? a = s.target? a) :
    others.length = ids.length := by
  refine ((List.perm_ext_iff_of_nodup h'.once h.once).mpr fun e => ?_).length_eq
  rw [h.mem_iff, h'.mem_iff, carries_congr same]

theorem Frontier.followers {all : List ElementId} (up : Grounded s.target? top)
    (h : Frontier s top all [] t) : s.Followers top (all.erase top) := by
  have once : all.Nodup := by simpa using h.fresh
  refine ⟨once.erase top, fun e => ?_⟩
  rw [once.mem_erase_iff, h.mem_done]
  constructor
  · rintro ⟨other, here | carried⟩
    · exact absurd here other
    · exact carried
  · intro carried
    exact ⟨fun here => Carries.irrefl up (here ▸ carried), .inr carried⟩

theorem Linked.not_carries (ok : s.Linked) (gone : ¬ s.contains top) (e : ElementId) :
    ¬ s.Carries top e := by
  rintro ⟨n, hn⟩
  rw [climb_succ] at hn
  obtain ⟨c, _, hc⟩ := Option.bind_eq_some_iff.mp hn
  exact gone (ok.live_of_refers (target?_eq_some.mp hc) (by decide))

theorem find?_of_gone (gone : ¬ s.contains top) : s.find? top = none :=
  Option.eq_none_iff_forall_ne_some.mpr fun e he => gone (contains_iff.mpr ⟨e, he⟩)

theorem propagate_gone (gone : ¬ s.contains top) : s.propagate top = (0, s) := by
  unfold propagate propagateFrom
  rw [if_neg (by simp [Table.contains]), find?_of_gone gone]
  cases s.size <;> rfl

theorem propagate_ends (ok : s.Linked) (up : Grounded s.target? top) :
    WorksOff .empty [top] 0 s (s.propagate top) ∧
      (∃ ids, s.Followers top ids ∧ (s.propagate top).1 = ids.length) ∧
      Propagated s top (s.propagate top).2 := by
  by_cases live : s.contains top
  · obtain ⟨works, all, count, ends⟩ := propagate_worksOff ok up live
    have begun : top ∈ all := (ends.mem_done top).mpr (.inl rfl)
    refine ⟨works, ⟨all.erase top, ends.followers up, ?_⟩, ends.propagated⟩
    rw [List.length_erase_of_mem begun, ← count, Nat.add_sub_cancel]
  · have alone := ok.not_carries live
    rw [propagate_gone live]
    refine ⟨.gone (by simp [Table.contains]) (find?_of_gone live) .done, ⟨[], ⟨.nil, fun e => ?_⟩, rfl⟩,
      ⟨.refl s, fun e _ carried => absurd carried (alone e), fun _ _ => rfl, fun _ _ => rfl⟩⟩
    exact iff_of_false List.not_mem_nil (alone e)

theorem propagate_again (ok : s.Linked) (up : Grounded s.target? top) :
    (s.propagate top).2.propagate top = s.propagate top := by
  obtain ⟨_, ⟨ids, followers, count⟩, placed⟩ := propagate_ends ok up
  have target := placed.quiet.target?
  have linked := ok.of_quiet placed.quiet
  obtain ⟨_, ⟨others, again, recount⟩, _⟩ := propagate_ends linked (funext target ▸ up)
  refine Prod.ext ?_ (propagate_settled linked placed.allSettled)
  rw [recount, count, followers.length_eq again target]

theorem resident_eq {e e' : ElementId} (find : t.find? e = s.find? e')
    (watched : t.watchers? e = s.watchers? e') : t.residents.find? e = s.residents.find? e' := by
  unfold find? at find
  unfold watchers? at watched
  cases ht : t.residents.find? e with
  | none =>
    rw [ht] at find
    exact (Option.map_eq_none_iff.mp find.symm).symm
  | some r =>
    rw [ht] at find watched
    obtain ⟨r', hr, element⟩ := Option.map_eq_some_iff.mp find.symm
    rw [hr] at watched ⊢
    cases r
    cases r'
    cases element
    cases watched
    rfl

theorem Propagated.agree (h : Propagated s top (s.propagate top).2) :
    Agree {e | ¬ s.Carries top e} s (s.propagate top).2 := by
  have all : s.Closed Set.univ := fun _ _ _ _ _ _ => trivial
  have frame : Agree Set.univᶜ s (s.propagate top).2 :=
    (Agree.propagate (.refl Set.univ s) all trivial).here
  exact { frame with
    residents := fun e apart =>
      resident_eq (h.elsewhere e apart) ((propagate_writes s top).watchers e)
    entries := h.entries }

theorem Held.resident {c e : ElementId} {x : Resident} (h : Held s c e t)
    (hx : s.residents.find? e = some x) (watched : t.watchers? e = s.watchers? e)
    (tied : s.target? e = some c) :
    ∃ a y, x.element.attachment = some a ∧ t.find? a.target = some y ∧
      t.residents.find? e = some { x with element := { x.element with
        position := y.position + (Axes.ofRotation y.rotation).apply a.position
        rotation := y.rotation + a.rotation } } := by
  obtain ⟨y, there, find, _⟩ := h
  have he : s.find? e = some x.element := by rw [find?, hx]; rfl
  obtain ⟨_, he', tie⟩ := Option.bind_eq_some_iff.mp tied
  cases he.symm.trans he'
  obtain ⟨a, ha, rfl⟩ := Option.map_eq_some_iff.mp tie
  have moved : x.element.heldAt y = placed y a x.element := by rw [Element.heldAt, ha]
  rw [he, Option.map_some, moved] at find
  obtain ⟨x', hx', element⟩ := Option.map_eq_some_iff.mp find
  rw [watchers?, watchers?, hx, hx'] at watched
  have destroyed : x'.destroyed = x.destroyed := Option.some.inj watched
  refine ⟨a, y, ha, there, hx'.trans ?_⟩
  show some x' = some { x with element := placed y a x.element }
  rw [← element, ← destroyed]

end Store

open Store

namespace Realm

/-- In every state that a realm can reach, the work begun with an element comes to an end and answers how
many elements hang on it, directly or through others; none do if it is not there. Each of them is then
where its own target, as it is in the end, holds it. Nothing else about them, and nothing about the
others, has changed; the indexes mirror the elements. The same work once more answers the same and
changes nothing. -/
theorem run_propagates (cellSize : Single) (ids : IdSource) (root : ElementId) (ops : List Op)
    (id : ElementId) :
    let s := ((fresh cellSize ids root).run ops).store
    let t := (s.propagate id).2
    WorksOff .empty [id] 0 s (s.propagate id) ∧
    (∃ held, s.Followers id held ∧ (s.propagate id).1 = held.length) ∧
    (¬ s.contains id → (s.propagate id).1 = 0) ∧
    (∀ e, s.Carries id e → ∃ x a y, s.residents.find? e = some x ∧
      x.element.attachment = some a ∧ t.find? a.target = some y ∧
      t.residents.find? e = some { x with element := { x.element with
        position := y.position + (Axes.ofRotation y.rotation).apply a.position
        rotation := y.rotation + a.rotation } }) ∧
    Agree {e | ¬ s.Carries id e} s t ∧
    t.Mirrored ∧
    t.propagate id = ((s.propagate id).1, t) := by
  intro s t
  have ok : s.Linked := run_linked cellSize ids root ops
  have up : Grounded s.target? id := run_untangled cellSize ids root ops .target (.inl rfl) id
  obtain ⟨works, count, placed⟩ := propagate_ends ok up
  refine ⟨works, count, fun gone => congrArg Prod.fst (propagate_gone gone), fun e carried => ?_,
    placed.agree, ?_, propagate_again ok up⟩
  · obtain ⟨c, hc, _⟩ := carried.cases
    obtain ⟨l, hl⟩ := contains_iff_watchers?.mp carried.contains
    obtain ⟨x, hx, _⟩ := Option.map_eq_some_iff.mp hl
    exact ⟨x, (placed.held e c carried hc).resident hx ((propagate_writes s id).watchers e) hc |>.imp
      fun a h => h.imp fun y h => ⟨hx, h⟩⟩
  · have next : ((fresh cellSize ids root).run (ops ++ [.world (.store (.propagate id))])).store = t := by
      simp only [run, List.foldl_append]
      rfl
    exact next ▸ run_mirrored cellSize ids root _

def garland : List Op :=
  [.insert { kind := .vehicle { model := 411 } }, .insert { kind := .object 1 },
    .insert { kind := .object 2 }, .attach ⟨2⟩ ⟨1⟩ ⟨.one, .zero, .zero⟩ .zero,
    .attach ⟨3⟩ ⟨2⟩ ⟨.one, .zero, .zero⟩ .zero,
    .update ⟨1⟩ ⟨({ · with position := ⟨.ofNat 5, .zero, .zero⟩ }), fun _ => rfl,
      fun _ _ _ => Iff.rfl⟩].map fun op => .world (.store op)

/-- Both objects follow, and once is enough. -/
theorem garland_propagates :
    let s := ((fresh Grid.defaultCellSize (.counter 1) ⟨0⟩).run garland).store
    let t := (s.propagate ⟨1⟩).2
    s.Followers ⟨1⟩ [⟨2⟩, ⟨3⟩] ∧ (s.propagate ⟨1⟩).1 = 2 ∧
      (t.find? ⟨3⟩).map (·.position) = some ⟨.ofNat 7, .zero, .zero⟩ ∧
      t.propagate ⟨1⟩ = (2, t) := by
  intro s t
  have two : (s.propagate ⟨1⟩).1 = 2 := by decide +kernel
  obtain ⟨_, ⟨held, followers, count⟩, _, _, _, _, again⟩ :=
    run_propagates Grid.defaultCellSize (.counter 1) ⟨0⟩ garland ⟨1⟩
  have near : ⟨2⟩ ∈ held := (followers.mem_iff _).mpr ⟨0, by decide +kernel⟩
  have far : ⟨3⟩ ∈ held := (followers.mem_iff _).mpr ⟨1, by decide +kernel⟩
  have both : [⟨2⟩, ⟨3⟩].Perm held :=
    (List.subperm_of_subset (by decide) (by simp [near, far])).perm_of_length_le
      (by rw [← count, two]; rfl)
  refine ⟨⟨by decide, fun e => both.mem_iff.trans (followers.mem_iff e)⟩, two,
    by decide +kernel, ?_⟩
  rw [again, two]

end Realm
end SharedWorld
