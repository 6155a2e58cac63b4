import SharedWorld.Proofs.Realm.Attachments
import SharedWorld.Proofs.Realm.Trailers

/-! No request closes a ring, and none is refused for a ring that it would not close. Before an element
is hung below a parent, held at a target or hitched behind a tower, the way up from there is walked to
its end, and the request is refused exactly if the element is met on it. -/
namespace SharedWorld
namespace Store
variable {s t : Store}

/-- One lies farther up than the other: it is an ancestor, holds it or tows it, directly or through
others. -/
def Over (up : ElementId → Option ElementId) (a b : ElementId) : Prop :=
  ∃ n, climb up (n + 1) b = some a

theorem eq_or_over {up : ElementId → Option ElementId} {a b : ElementId} :
    a = b ∨ Over up a b ↔ ∃ n, climb up n b = some a := by
  constructor
  · rintro (rfl | ⟨n, hn⟩)
    · exact ⟨0, rfl⟩
    · exact ⟨n + 1, hn⟩
  · rintro ⟨n, hn⟩
    cases n with
    | zero => exact .inl (Option.some.inj hn).symm
    | succ n => exact .inr ⟨n, hn⟩

structure Retowed (s : Store) (trailer tower : ElementId) (t : Store) : Prop where
  coupled : t.Coupled tower trailer
  displaced : ∀ a, s.towing? tower = some a → a ≠ trailer → t.towedBy? a = none
  released : ∀ a, s.towedBy? trailer = some a → a ≠ tower → t.towing? a = none
  behind : ∀ a, a ≠ trailer → s.towing? tower ≠ some a → t.towedBy? a = s.towedBy? a
  ahead : ∀ a, a ≠ tower → s.towedBy? trailer ≠ some a → t.towing? a = s.towing? a

theorem Linked.towing?_iff (ok : s.Linked) {a b : ElementId} :
    s.towing? a = some b ↔ s.towedBy? b = some a := by
  rw [towing?_eq_some, towedBy?_eq_some, ok.towing_iff]

theorem Rewired.retowed (ok : s.Linked) {trailer tower : ElementId}
    (tied : Rewired s t (s.relink .towedBy trailer (some tower))) : Retowed s trailer tower t := by
  have ahead : Rewired s t (s.relink .towing tower (some trailer)) :=
    tied.congr (relink_swap (by decide) (by decide))
  refine ⟨⟨?_, ?_⟩, fun a pulled other => ?_, fun a pulling other => ?_, fun a other apart => ?_,
    fun a other apart => ?_⟩
  · rw [towing?_eq_reference?]
    exact reference?_relinked (by decide) ahead
  · exact towedBy?_trailer tied
  · rw [ok.towing?_iff, towedBy?_eq_reference?] at pulled
    rw [towedBy?_eq_reference?]
    exact reference?_relinked_displaced (by decide) tied other (by decide) pulled
  · rw [← ok.towing?_iff, towing?_eq_reference?] at pulling
    rw [towing?_eq_reference?]
    exact reference?_relinked_displaced (by decide) ahead other (by decide) pulling
  · exact towedBy?_aside tied other (mt ok.towing?_iff.mpr apart)
  · rw [Ne, ← ok.towing?_iff, towing?_eq_reference?] at apart
    rw [towing?_eq_reference?, towing?_eq_reference?]
    exact reference?_relinked_aside (by decide) ahead other fun _ => apart

end Store

open Store

namespace Realm

/-- A request that would put `a` below `b`: the way up from `b` ends, the request is refused exactly if
`a` is met on it, and done otherwise. Whatever it is refused for, nothing changes. -/
structure Guarded {α : Type} (r : Realm) (up : ElementId → Option ElementId) (a b : ElementId)
    (op : Store.Op) (answer : Except WorldError α) (ring : WorldError) (done : α → Prop) :
    Prop where
  ends : climb up r.store.size b = none
  refused : answer = .error ring ↔ a = b ∨ Over up a b
  granted : ¬ (a = b ∨ Over up a b) → ∃ x, answer = .ok x ∧ done x
  unchanged : ∀ e, answer = .error e → r.perform (.world (.store op)) = r

variable {r : Realm}

theorem Guarded.of_cases {α : Type} {up : ElementId → Option ElementId} {a b : ElementId}
    {op : Store.Op} {answer : Except WorldError α} {ring : WorldError} {done : α → Prop}
    (ends : climb up r.store.size b = none)
    (unchanged : ∀ e, answer = .error e → r.store.perform op = r.store)
    (cases : ((∃ n, climb up n b = some a) ∧ answer = .error ring) ∨
      (¬ (∃ n, climb up n b = some a) ∧ ∃ x, answer = .ok x ∧ done x)) :
    Guarded r up a b op answer ring done where
  ends := ends
  refused := by
    rw [eq_or_over]
    rcases cases with ⟨met, refused⟩ | ⟨clear, x, granted, _⟩
    · exact iff_of_true refused met
    · exact iff_of_false (by rw [granted]; exact nofun) clear
  granted clear := (cases.resolve_left fun met => clear (eq_or_over.mpr met.1)).2
  unchanged e he := by
    show { r with world := { r.world with store := r.store.perform op } } = r
    rw [unchanged e he]
    rfl

theorem setParent_guarded (ok : r.store.Linked) {child parent : ElementId}
    (fixed : child ≠ r.store.root) (hc : r.store.contains child) (hp : r.store.contains parent) :
    Guarded r r.store.parent? child parent (.setParent child parent)
      (r.store.setParent child parent) (.cyclicParent child parent) fun t =>
        t.parent? child = some parent ∧ ∀ a, a ≠ child → t.parent? a = r.store.parent? a := by
  refine .of_cases (ok.climb_size hp) (fun e he => by rw [Store.perform, he]; rfl) ?_
  have done {t} (h : r.store.setParent child parent = .ok t) :
      t.parent? child = some parent ∧ ∀ a, a ≠ child → t.parent? a = r.store.parent? a := by
    obtain ⟨_, _, _, moved⟩ := setParent_rewired ok h
    exact ⟨reference?_relinked (by decide) moved,
      fun a other => reference?_relinked_aside (by decide) moved other fun one => absurd one (by decide)⟩
  obtain ⟨e, he⟩ := contains_iff.mp hc
  unfold setParent at done ⊢
  rw [if_neg fixed, he] at done ⊢
  dsimp only at done ⊢
  rw [if_neg (not_not.mpr hp)] at done ⊢
  split
  · next same =>
    have up : r.store.parent? child = some parent := by simp [parent?, he, same]
    refine .inr ⟨fun met => ?_, _, rfl, done (if_pos same)⟩
    obtain ⟨n, hn⟩ := met
    exact (ok.grounded child).no_return n (by simpa [climb, up] using hn)
  · next other =>
    rw [if_neg other] at done
    have search := ok.reaches_iff (a := child) (show Tie.parent.IsSingle by decide) (by decide)
      (ok.grounded parent)
    split
    · next met => exact .inl ⟨search.mp met, rfl⟩
    · next clear => exact .inr ⟨mt search.mpr clear, _, rfl, done (if_neg clear)⟩

theorem attach_guarded (ok : r.store.Linked) (free : r.store.Untangled) {element target : ElementId}
    (he : r.store.contains element) (ht : r.store.contains target) (position rotation : Vec3) :
    Guarded r r.store.target? element target (.attach element target position rotation)
      (r.store.attach element target position rotation) (.cyclicAttachment element target) fun t =>
        t.target? element = some target := by
  refine .of_cases ((ok.attachmentForest free).ends ht) (fun e he => by rw [Store.perform, he]; rfl) ?_
  have done {t} (h : r.store.attach element target position rotation = .ok t) :
      t.target? element = some target := reference?_relinked (by decide) (attach_rewired ok h)
  obtain ⟨e, he⟩ := contains_iff.mp he
  unfold attach at done ⊢
  rw [he] at done ⊢
  dsimp only at done ⊢
  rw [if_neg (not_not.mpr ht)] at done ⊢
  have search := ok.reaches_iff (a := element) (show Tie.target.IsSingle by decide) (by decide)
    (free .target (.inl rfl) target)
  split
  · next met => exact .inl ⟨search.mp met, rfl⟩
  · next clear => exact .inr ⟨mt search.mpr clear, _, rfl, done (if_neg clear)⟩

theorem attachToTower_guarded (ok : r.store.Linked) (free : r.store.Untangled)
    {trailer tower : ElementId} (ht : r.store.type? trailer = some .vehicle)
    (hw : r.store.type? tower = some .vehicle) :
    Guarded r r.store.towedBy? trailer tower (.attachToTower trailer (some tower))
      (r.store.attachToTower trailer (some tower)) (.cyclicTow trailer tower) fun x =>
        Retowed r.store trailer tower x.2 := by
  have ends : climb r.store.towedBy? r.store.size tower = none := by
    rw [towedBy?_eq_reference?]
    exact ok.climb_reference (by decide) (by decide) (free .towedBy (.inr rfl) tower)
      (contains_iff_type?.mpr ⟨_, hw⟩)
  refine .of_cases ends (fun e he => by rw [Store.perform, he]; rfl) ?_
  rcases attachToTower_answer ok free ht hw with ⟨clear, x, hitched⟩ | ⟨met, refused⟩
  · exact .inr ⟨clear, x, hitched, (attachToTower_rewired ok hitched).retowed ok⟩
  · exact .inl ⟨met, refused⟩

/-- In every state that a realm can reach, an element other than the root is hung below another, held at
it or hitched behind it, unless the two are the same or it is above the other already; then it is refused
for the ring, and nothing changes. -/
theorem run_guarded (cellSize : Single) (ids : IdSource) (root : ElementId) (ops : List Op) :
    let r := (fresh cellSize ids root).run ops
    let s := r.store
    (∀ c p, c ≠ s.root → s.contains c → s.contains p →
      Guarded r s.parent? c p (.setParent c p) (s.setParent c p) (.cyclicParent c p) fun t =>
        t.parent? c = some p ∧ ∀ a, a ≠ c → t.parent? a = s.parent? a) ∧
    (∀ e b position rotation, s.contains e → s.contains b →
      Guarded r s.target? e b (.attach e b position rotation) (s.attach e b position rotation)
        (.cyclicAttachment e b) fun t => t.target? e = some b) ∧
    ∀ x w, s.type? x = some .vehicle → s.type? w = some .vehicle →
      Guarded r s.towedBy? x w (.attachToTower x (some w)) (s.attachToTower x (some w))
        (.cyclicTow x w) fun answer => Retowed s x w answer.2 := by
  intro r s
  have ok : s.Linked := run_linked cellSize ids root ops
  have free : s.Untangled := run_untangled cellSize ids root ops
  exact ⟨fun c p fixed hc hp => setParent_guarded ok fixed hc hp,
    fun e b position rotation he hb => attach_guarded ok free he hb position rotation,
    fun x w hx hw => attachToTower_guarded ok free hx hw⟩

def platoon : List Op :=
  [.insert { kind := .vehicle { model := 403 } }, .insert { kind := .vehicle { model := 606 } },
    .insert { kind := .vehicle { model := 607 } }, .setParent ⟨2⟩ ⟨1⟩, .setParent ⟨3⟩ ⟨2⟩,
    .attach ⟨2⟩ ⟨1⟩ .zero .zero, .attach ⟨3⟩ ⟨2⟩ .zero .zero, .attachToTower ⟨2⟩ (some ⟨1⟩),
    .attachToTower ⟨3⟩ (some ⟨2⟩)].map fun op => .world (.store op)

theorem platoon_guarded :
    let s := ((fresh Grid.defaultCellSize (.counter 1) ⟨0⟩).run platoon).store
    s.setParent ⟨1⟩ ⟨3⟩ = .error (.cyclicParent ⟨1⟩ ⟨3⟩) ∧
      s.attach ⟨1⟩ ⟨3⟩ .zero .zero = .error (.cyclicAttachment ⟨1⟩ ⟨3⟩) ∧
      (∃ t, s.setParent ⟨3⟩ ⟨1⟩ = .ok t ∧ t.parent? ⟨3⟩ = some ⟨1⟩) ∧
      ∃ x, s.attachToTower ⟨3⟩ (some ⟨1⟩) = .ok x ∧ x.2.Coupled ⟨1⟩ ⟨3⟩ ∧
        x.2.towedBy? ⟨2⟩ = none ∧ x.2.towing? ⟨2⟩ = none := by
  intro s
  have ok : s.Linked := run_linked Grid.defaultCellSize (.counter 1) ⟨0⟩ platoon
  have free : s.Untangled := run_untangled Grid.defaultCellSize (.counter 1) ⟨0⟩ platoon
  obtain ⟨tree, held, towed⟩ := run_guarded Grid.defaultCellSize (.counter 1) ⟨0⟩ platoon
  have first : s.contains ⟨1⟩ := by decide +kernel
  have last : s.contains ⟨3⟩ := by decide +kernel
  have below : ¬ ((⟨3⟩ : ElementId) = ⟨1⟩ ∨ Over s.parent? ⟨3⟩ ⟨1⟩) := by
    rw [eq_or_over]
    exact mt (ok.reaches_iff (show Tie.parent.IsSingle by decide) (by decide) (ok.grounded _)).mpr
      (by decide +kernel)
  have behind : ¬ ((⟨3⟩ : ElementId) = ⟨1⟩ ∨ Over s.towedBy? ⟨3⟩ ⟨1⟩) := by
    rw [eq_or_over, towedBy?_eq_reference?]
    exact mt (ok.reaches_iff (by decide) (by decide) (free .towedBy (.inr rfl) _)).mpr
      (by decide +kernel)
  refine ⟨(tree ⟨1⟩ ⟨3⟩ (by decide +kernel) first last).refused.mpr (.inr ⟨1, by decide +kernel⟩),
    (held ⟨1⟩ ⟨3⟩ .zero .zero first last).refused.mpr (.inr ⟨1, by decide +kernel⟩), ?_, ?_⟩
  · obtain ⟨t, done, hung, _⟩ := (tree ⟨3⟩ ⟨1⟩ (by decide +kernel) last first).granted below
    exact ⟨t, done, hung⟩
  · obtain ⟨x, done, tied⟩ :=
      (towed ⟨3⟩ ⟨1⟩ (by decide +kernel) (by decide +kernel)).granted behind
    exact ⟨x, done, tied.coupled, tied.displaced ⟨2⟩ (by decide +kernel) (by decide),
      tied.released ⟨2⟩ (by decide +kernel) (by decide)⟩

end Realm
end SharedWorld
