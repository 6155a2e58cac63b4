import SharedWorld.Proofs.Store.Followers
import SharedWorld.Proofs.World.Turns
import SharedWorld.Proofs.World.Writes

/-! What writing to some elements leaves of the others. They may be moved along, and may lose the tow
pair that they had with one that was written to; nothing else about them changes. -/
namespace SharedWorld

/-- What an element is and what it is tied to, apart from what it tows or is towed by. -/
structure Bonds where
  id : ElementId
  type : ElementType
  parent : Option ElementId
  children : IdSet
  attachment : Option Attachment
  attached : IdSet
  driver : Option ElementId
  seat : Option ElementId
  endpoint : Option Endpoint
deriving DecidableEq

def Vehicle.untowed (v : Vehicle) : Vehicle := { v with towing := none, towedBy := none }

def Vehicle.OnlyTows (g : Vehicle → Vehicle) : Prop := ∀ v, (g v).untowed = v.untowed

namespace Element

def bonds (e : Element) : Bonds where
  id := e.id
  type := e.type
  parent := e.parent
  children := e.children
  attachment := e.attachment
  attached := e.attached
  driver := e.vehicle?.bind (·.driver)
  seat := e.player?.bind (·.vehicle)
  endpoint := e.player?.map (·.endpoint)

/-- An element but for where it stands, what it tows and what it is towed by. -/
def rest (e : Element) : Element :=
  { e.updateVehicle Vehicle.untowed with position := .zero, rotation := .zero }

theorem rest_bonds (e : Element) : e.rest.bonds = e.bonds := by
  cases e with | mk kind => cases kind <;> rfl

theorem rest_updateVehicle {g : Vehicle → Vehicle} (tows : Vehicle.OnlyTows g) (e : Element) :
    (e.updateVehicle g).rest = e.rest := by
  cases e with | mk kind =>
  cases kind with
  | vehicle v => simp [rest, updateVehicle, tows v]
  | _ => rfl

theorem rest_placed (target : Element) (a : Attachment) (e : Element) :
    (Store.placed target a e).rest = e.rest := by
  cases e with | mk kind => cases kind <;> rfl

theorem rest_restored (e : Element) : e =
    { e.rest.updateVehicle ({ · with
        towing := e.reference? .towing, towedBy := e.reference? .towedBy }) with
      position := e.position, rotation := e.rotation } := by
  cases e with | mk kind => cases kind <;> rfl

end Element

namespace Store
variable {s t u : Store}

def rest? (s : Store) (a : ElementId) : Option Element := (s.find? a).map (·.rest)

def bonds? (s : Store) (a : ElementId) : Option Bonds := (s.find? a).map (·.bonds)

theorem bonds?_of_rest? {a : ElementId} (h : t.rest? a = s.rest? a) : t.bonds? a = s.bonds? a := by
  have seen (s : Store) : (s.rest? a).map (·.bonds) = s.bonds? a := by
    unfold rest? bonds?
    cases s.find? a with
    | none => rfl
    | some e => exact congrArg some e.rest_bonds
  rw [← seen, ← seen, h]

theorem find?_of_rest? {a : ElementId} (rest : t.rest? a = s.rest? a)
    (stance : t.stance? a = s.stance? a)
    (tow : ∀ tie, tie = .towing ∨ tie = .towedBy → t.reference? tie a = s.reference? tie a) :
    t.find? a = s.find? a := by
  have towing := tow .towing (.inl rfl)
  have towedBy := tow .towedBy (.inr rfl)
  unfold rest? at rest
  unfold stance? at stance
  unfold reference? at towing towedBy
  cases ht : t.find? a with
  | none =>
    rw [ht] at rest
    cases hs : s.find? a with
    | none => rfl
    | some e => simp [hs] at rest
  | some e' =>
    cases hs : s.find? a with
    | none => simp [ht, hs] at rest
    | some e =>
      simp only [ht, hs, Option.map_some, Option.some.injEq, Option.bind_some] at *
      have position : e'.position = e.position := congrArg Stance.position stance
      have rotation : e'.rotation = e.rotation := congrArg Stance.rotation stance
      rw [e'.rest_restored, e.rest_restored, rest, towing, towedBy, position, rotation]

section Rest
variable {f : Element → Element}

theorem update_rest (same : ∀ e, (f e).rest = e.rest) {id : ElementId} (h : s.update id f = .ok t)
    (a : ElementId) : t.rest? a = s.rest? a := update_view same h a

theorem update_rest_of_ne {id a : ElementId} (h : s.update id f = .ok t) (other : a ≠ id) :
    t.rest? a = s.rest? a := by
  unfold rest?
  rw [find?_update h, if_neg other]

theorem update_bonds (same : ∀ e, (f e).bonds = e.bonds) {id : ElementId}
    (h : s.update id f = .ok t) (a : ElementId) : t.bonds? a = s.bonds? a := update_view same h a

end Rest

theorem follow_rest {targetId id : ElementId} {target : Element}
    (h : s.follow targetId target id = some t) (a : ElementId) : t.rest? a = s.rest? a := by
  simp only [follow, Option.bind_eq_bind, Option.bind_eq_some_iff] at h
  obtain ⟨e, _, held, _, h⟩ := h
  split at h
  · cases hu : s.update id (placed target held) with
    | error => simp [hu, Except.toOption] at h
    | ok s' =>
      simp only [hu, Except.toOption, Option.some.injEq] at h
      subst h
      exact update_rest (Element.rest_placed target held) hu a
  · cases h

theorem followAll_rest (targetId : ElementId) (target : Element) (ids : List ElementId) (s : Store)
    (a : ElementId) : (s.followAll targetId target ids).2.rest? a = s.rest? a := by
  induction ids generalizing s with
  | nil => rfl
  | cons id rest ih =>
    unfold followAll
    split
    · exact ih s
    · next s' hs => exact (ih s').trans (follow_rest hs a)

theorem propagateFrom_rest (n : Nat) (visited : IdSet) (waiting : List ElementId) (moved : Nat)
    (s : Store) (a : ElementId) :
    (propagateFrom n visited waiting moved s).2.rest? a = s.rest? a := by
  induction n generalizing visited waiting moved s with
  | zero => rfl
  | succ n ih =>
    cases waiting with
    | nil => rfl
    | cons current waiting =>
      unfold propagateFrom
      split
      · exact ih ..
      · split
        · exact ih ..
        · next e _ => exact (ih ..).trans (followAll_rest current e e.attached.toList s a)

theorem propagate_rest (s : Store) (target a : ElementId) :
    (s.propagate target).2.rest? a = s.rest? a := propagateFrom_rest ..

theorem retow_rest (s : Store) (trailer : ElementId) (old tower displaced : Option ElementId)
    (a : ElementId) : (s.retow trailer old tower displaced).rest? a = s.rest? a := by
  unfold retow rest?
  dsimp only
  rw [modify_view, modifyAll_view, modifyAll_view, modifyAll_view]
  all_goals refine Element.rest_updateVehicle fun v => ?_
  · split <;> rfl
  · rfl
  · rfl
  · rfl

theorem attachToTower_rest {trailer : ElementId} {tower : Option ElementId} {changed : Bool}
    (h : s.attachToTower trailer tower = .ok (changed, t)) (a : ElementId) :
    t.rest? a = s.rest? a := by
  rcases attachToTower_cases h with rfl | ⟨old, displaced, rfl⟩
  · rfl
  · exact retow_rest ..

theorem relink_aside {trailer : ElementId} {tower : Option ElementId} {tie : Tie} {a b : ElementId}
    (tow : tie = .towing ∨ tie = .towedBy) (ha : a ≠ trailer) (hy : tower ≠ some a) :
    (s.relink .towedBy trailer tower tie a b → s.Refers tie a b) ∧
      (b ≠ trailer → tower ≠ some b → s.Refers tie a b →
        s.relink .towedBy trailer tower tie a b) := by
  rcases tow with rfl | rfl
  · simp only [relink, Tie.inverse, reduceCtorEq, if_false, if_true, hy, and_false, false_or,
      not_false_eq_true, and_true]
    exact ⟨fun h => h.2, fun hb _ h => ⟨hb, h⟩⟩
  · simp only [relink, if_true, ha, false_and, false_or, ne_eq, not_false_eq_true, true_and]
    exact ⟨fun h => h.1, fun _ hb h => ⟨h, fun here => hb here.2⟩⟩

theorem detachTowed_pair {tower : ElementId} {answer : Option ElementId}
    (h : s.detachTowed tower = .ok (answer, t)) :
    t = s ∨ ∃ trailer changed, s.Refers .towing tower trailer ∧
      s.attachToTower trailer none = .ok (changed, t) := by
  unfold detachTowed at h
  obtain ⟨v, hv, h⟩ := bind_eq_ok.mp h
  split at h
  · cases h
    exact .inl rfl
  · next trailer pulls =>
    obtain ⟨x, hx, h⟩ := bind_eq_ok.mp h
    cases h
    exact .inr ⟨trailer, x.1, (refers_of_vehicle hv rfl trailer).mpr pulls, hx⟩

theorem Quiet.reference? (h : Quiet s t) {tie : Tie} (single : tie.IsSingle) (a : ElementId) :
    t.reference? tie a = s.reference? tie a := by
  apply Option.ext
  intro b
  rw [reference?_eq_some single, reference?_eq_some single, h.refers]

/-- Two vehicles of which one tows the other. -/
def Hitched (s : Store) (a b : ElementId) : Prop := s.Refers .towing a b ∨ s.Refers .towedBy a b

/-- From `s` on, only the elements in `written` were written to. The others may have been moved, and
may have lost a tow pair with one of those; they have got no new one. -/
structure Sparing (s : Store) (written : List ElementId) (t : Store) : Prop where
  linked : t.Linked
  rest : ∀ a ∉ written, t.rest? a = s.rest? a
  gained : ∀ {tie a b}, tie = .towing ∨ tie = .towedBy → a ∉ written → t.Refers tie a b →
    s.Refers tie a b
  lost : ∀ {tie a b}, tie = .towing ∨ tie = .towedBy → a ∉ written → b ∉ written →
    s.Refers tie a b → t.Refers tie a b

namespace Sparing
variable {written : List ElementId} {id : ElementId}

theorem refl (ok : s.Linked) : Sparing s [] s where
  linked := ok
  rest _ _ := rfl
  gained _ _ h := h
  lost _ _ _ h := h

theorem mono {more : List ElementId} (h : Sparing s written t) (sub : written ⊆ more) :
    Sparing s more t :=
  { h with
    rest := fun a ha => h.rest a fun hw => ha (sub hw)
    gained := fun tow ha => h.gained tow fun hw => ha (sub hw)
    lost := fun tow ha hb => h.lost tow (fun hw => ha (sub hw)) fun hw => hb (sub hw) }

theorem reference? (h : Sparing s written t) {a : ElementId} (ha : a ∉ written)
    (free : ∀ x ∈ written, ¬ s.Hitched a x) {tie : Tie} (tow : tie = .towing ∨ tie = .towedBy) :
    t.reference? tie a = s.reference? tie a := by
  have single : tie.IsSingle := by rcases tow with rfl | rfl <;> decide
  apply Option.ext
  intro b
  rw [reference?_eq_some single, reference?_eq_some single]
  refine ⟨h.gained tow ha, fun hb => h.lost tow ha (fun hw => free b hw ?_) hb⟩
  rcases tow with rfl | rfl
  · exact .inl hb
  · exact .inr hb

/-- A quiet write, to an element of those that may be written to, and what hangs on it follows. -/
theorem write (h : Sparing s written t) (hid : id ∈ written) {f : Element → Element}
    (tame : Element.Tame f) (hu : t.update id f = .ok u) :
    Sparing s written (u.propagate id).2 := by
  have edited : Quiet t u := update_rewired hu (modify_quiet tame t id)
  have quiet := edited.trans (propagate_quiet u id)
  refine ⟨h.linked.of_quiet quiet, fun a ha => ?_, fun tow ha hb => ?_,
    fun tow ha hb hr => (quiet.refers ..).mpr (h.lost tow ha hb hr)⟩
  · have other : a ≠ id := fun here => ha (here ▸ hid)
    rw [propagate_rest, update_rest_of_ne hu other, h.rest a ha]
  · exact h.gained tow ha ((quiet.refers ..).mp hb)

theorem towed (h : Sparing s written t) {trailer : ElementId} {tower : Option ElementId}
    {changed : Bool} (ha : t.attachToTower trailer tower = .ok (changed, u))
    (gained : ∀ {tie a b}, tie = .towing ∨ tie = .towedBy → a ∉ written → u.Refers tie a b →
      t.Refers tie a b)
    (lost : ∀ {tie a b}, tie = .towing ∨ tie = .towedBy → a ∉ written → b ∉ written →
      t.Refers tie a b → u.Refers tie a b) : Sparing s written u where
  linked := (attachToTower_turn ha).linked h.linked
  rest a far := by rw [attachToTower_rest ha a, h.rest a far]
  gained tow far hb := h.gained tow far (gained tow far hb)
  lost tow far far' hb := lost tow far far' (h.lost tow far far' hb)

theorem hitch (h : Sparing s written t) {trailer tower : ElementId} (hw : tower ∈ written)
    {changed : Bool} (ha : t.attachToTower trailer (some tower) = .ok (changed, u)) :
    Sparing s (written ++ [trailer]) u := by
  have rewired := attachToTower_rewired h.linked ha
  have aside {a} (far : a ∉ written ++ [trailer]) : a ≠ trailer ∧ some tower ≠ some a := by
    simp only [List.mem_append, List.mem_singleton, not_or] at far
    refine ⟨far.2, fun here => ?_⟩
    cases here
    exact far.1 hw
  refine (h.mono (List.subset_append_left ..)).towed ha (fun tow far hb => ?_)
    fun tow far far' hb => ?_
  · exact (relink_aside tow (aside far).1 (aside far).2).1 ((rewired.refers ..).mp hb)
  · obtain ⟨ne, hy⟩ := aside far'
    exact (rewired.refers ..).mpr ((relink_aside tow (aside far).1 (aside far).2).2 ne hy hb)

theorem unhitch (h : Sparing s written t) {tower : ElementId} (hw : tower ∈ written)
    {answer : Option ElementId} (hd : t.detachTowed tower = .ok (answer, u)) :
    Sparing s written u := by
  rcases detachTowed_pair hd with rfl | ⟨trailer, changed, pulls, ha⟩
  · exact h
  have rewired := attachToTower_rewired h.linked ha
  have pulled : t.Refers .towedBy trailer tower := h.linked.towing_iff.mp pulls
  refine h.towed ha (fun tow far hb => ?_) fun {tie a b} tow far far' hb => ?_
  · rw [rewired.refers] at hb
    rcases tow with rfl | rfl <;>
    · obtain ⟨_, none⟩ | ⟨_, held, _⟩ := hb
      · cases none
      · exact held
  · rw [rewired.refers]
    rcases tow with rfl | rfl
    · have other : b ≠ trailer := by
        rintro rfl
        exact far (pulled.unique (h.linked.towing_iff.mp hb) (by decide) ▸ hw)
      exact .inr ⟨other, hb, nofun⟩
    · have other : a ≠ trailer := by
        rintro rfl
        exact far' (pulled.unique hb (by decide) ▸ hw)
      exact .inr ⟨other, hb, nofun⟩

end Sparing

/-- What becomes of a store if the elements in `own` are written to, what hangs on those in `moved`
is moved along, and those in `towed` get and lose tow pairs. No bond is tied or cut, nothing comes or
goes, and whoever is not concerned is as before. -/
structure Frame (s t : Store) (own moved towed : List ElementId) : Prop where
  bonds : ∀ a, t.bonds? a = s.bonds? a
  rest : ∀ a ∉ own, t.rest? a = s.rest? a
  stance : ∀ a ∉ own, (∀ x ∈ moved, ¬ s.Carries x a) → t.stance? a = s.stance? a
  tow : ∀ a ∉ own, (∀ x ∈ towed, ¬ s.Hitched a x) → ∀ tie, tie = .towing ∨ tie = .towedBy →
    t.reference? tie a = s.reference? tie a

namespace Frame
variable {own moved towed : List ElementId}

theorem find? (h : Frame s t own moved towed) {a : ElementId} (apart : a ∉ own)
    (standing : ∀ x ∈ moved, ¬ s.Carries x a) (free : ∀ x ∈ towed, ¬ s.Hitched a x) :
    t.find? a = s.find? a :=
  find?_of_rest? (h.rest a apart) (h.stance a apart standing) (h.tow a apart free)

theorem contains (h : Frame s t own moved towed) (a : ElementId) : t.contains a ↔ s.contains a := by
  have live (s : Store) : s.contains a ↔ (s.bonds? a).isSome := by
    rw [contains_iff, bonds?, Option.isSome_map, Option.isSome_iff_exists]
  rw [live, live, h.bonds]

theorem refl (s : Store) (own moved towed : List ElementId) : Frame s s own moved towed :=
  ⟨fun _ => rfl, fun _ _ => rfl, fun _ _ _ => rfl, fun _ _ _ _ _ => rfl⟩

theorem of_update {id : ElementId} {f : Element → Element} (bonds : ∀ e, (f e).bonds = e.bonds)
    (h : s.update id f = .ok t) (hid : id ∈ own) : Frame s t own moved towed := by
  have find {a} (ha : a ∉ own) : t.find? a = s.find? a := by
    rw [find?_update h, if_neg fun here : a = id => ha (here ▸ hid)]
  refine ⟨update_bonds bonds h, fun a ha => ?_, fun a ha _ => ?_, fun a ha _ tie _ => ?_⟩
  · exact congrArg (Option.map Element.rest) (find ha)
  · exact congrArg (Option.map Element.stance) (find ha)
  · exact congrArg (Option.bind · (Element.reference? · tie)) (find ha)

end Frame

end Store
end SharedWorld
