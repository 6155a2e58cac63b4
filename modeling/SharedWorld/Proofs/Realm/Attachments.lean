import SharedWorld.Proofs.Realm.Vehicles
import SharedWorld.Proofs.Store.Frame

/-! Attachments in a realm, whatever happens in it: both ends of an attachment know of it, and the
way from an element to its target comes to an end. -/
namespace SharedWorld
namespace Store
variable {s t : Store} {element target : ElementId}

/-- What is held by other elements makes a forest: both ends of an attachment are live and know of
it, an element has one target at most, and the way from target to target ends and goes through
nothing twice. -/
structure AttachmentForest (s : Store) : Prop where
  paired : ∀ {a b x y}, s.find? a = some x → s.find? b = some y →
    (b ∈ x.attached ↔ y.target? = some a)
  target : ∀ {a b x}, s.find? a = some x → x.target? = some b → s.contains b
  attached : ∀ {a b x}, s.find? a = some x → b ∈ x.attached → s.contains b
  one : ∀ {a b c x y}, s.find? a = some x → s.find? b = some y → c ∈ x.attached →
    c ∈ y.attached → a = b
  ends : ∀ {a}, s.contains a → climb s.target? s.size a = none
  distinct : ∀ {a b m n}, climb s.target? m a = some b → climb s.target? n a = some b → m = n

theorem Linked.attachmentForest (ok : s.Linked) (free : s.Untangled) : s.AttachmentForest := by
  have up (a) : Grounded s.target? a := free .target (.inl rfl) a
  have holds {a b x} (ha : s.find? a = some x) : s.Refers .attached a b ↔ b ∈ x.attached :=
    refers_of_find? ha
  have held {a b x} (ha : s.find? a = some x) : s.Refers .target a b ↔ x.target? = some b :=
    refers_of_find? ha
  refine ⟨fun {a b x y} ha hb => ?_, fun {a b x} ha hb => ?_, fun {a b x} ha hb => ?_,
    fun {a b c x y} ha hb hx hy => ?_, fun {a} ha => ?_, fun hm hn => (up _).climb_inj hm hn⟩
  · exact (holds ha).symm.trans (ok.attached_iff.trans (held hb))
  · exact ok.live_of_refers ((held ha).mpr hb) (by decide)
  · exact ok.live_of_refers ((holds ha).mpr hb) (by decide)
  · have by_a : s.Refers .target c a := ok.attached_iff.mp ((holds ha).mpr hx)
    have by_b : s.Refers .target c b := ok.attached_iff.mp ((holds hb).mpr hy)
    exact by_a.unique by_b (by decide)
  · have targets : s.target? = s.reference? .target := rfl
    rw [targets]
    exact ok.climb_reference (by decide) (by decide) (free .target (.inl rfl) a) ha

theorem modify_attachment (s : Store) {id : ElementId} (live : s.contains id)
    (new : Option Attachment) (a : ElementId) :
    ((s.modify id ({ · with attachment := new })).find? a).map (·.attachment) =
      if a = id then some new else (s.find? a).map (·.attachment) := by
  rw [find?_modify]
  split
  · next here =>
    obtain ⟨e, he⟩ := contains_iff.mp live
    simp [here, he]
  · rfl

theorem propagate_attachment (s : Store) (target a : ElementId) :
    ((s.propagate target).2.find? a).map (·.attachment) = (s.find? a).map (·.attachment) := by
  have seen (s : Store) : (s.find? a).map (·.attachment) = (s.bonds? a).map (·.attachment) := by
    unfold bonds?
    rw [Option.map_map]
    rfl
  rw [seen, seen, bonds?_of_rest? (propagate_rest s target a)]

theorem attach_attachment {position rotation : Vec3}
    (h : s.attach element target position rotation = .ok t) (a : ElementId) :
    (t.find? a).map (·.attachment) =
      if a = element then some (some ⟨target, position, rotation⟩)
      else (s.find? a).map (·.attachment) := by
  unfold attach at h
  split at h
  · cases h
  next e he =>
  split at h
  · cases h
  split at h
  · cases h
  cases h
  have live : ((s.modifyAll (e.target?.filter (· ≠ target)).toList (·.dropAttached element)).modify
      target (·.addAttached element)).contains element := by
    have cut := modifyAll_cuts (Element.cuts_dropAttached element)
      (e.target?.filter (· ≠ target)).toList s
    rw [(modify_adds (Element.adds_addAttached element) _ target).contains, cut.contains]
    exact contains_iff.mpr ⟨e, he⟩
  rw [propagate_attachment, modify_attachment _ live,
    modify_view (f := (·.addAttached element)) fun _ => rfl,
    modifyAll_view (f := (·.dropAttached element)) fun _ => rfl]

theorem detach_attachment {answer : Bool} (h : s.detach element = .ok (answer, t)) (a : ElementId) :
    (t.find? a).map (·.attachment) =
      if a = element then some none else (s.find? a).map (·.attachment) := by
  unfold detach at h
  split at h
  · cases h
  next e he =>
  split at h
  · next untied =>
    cases h
    split
    · next here => simpa [here, he] using Option.map_eq_none_iff.mp untied
    · rfl
  · next target _ =>
    cases h
    have live : (s.modify target (·.dropAttached element)).contains element := by
      rw [(modify_cuts (Element.cuts_dropAttached element) s target).contains]
      exact contains_iff.mpr ⟨e, he⟩
    rw [modify_attachment _ live, modify_view (f := (·.dropAttached element)) fun _ => rfl]

end Store

namespace Realm

theorem run_attachmentForest (cellSize : Single) (ids : IdSource) (root : ElementId)
    (ops : List Op) : ((fresh cellSize ids root).run ops).store.AttachmentForest :=
  (run_linked cellSize ids root ops).attachmentForest (run_untangled cellSize ids root ops)

end Realm
end SharedWorld
