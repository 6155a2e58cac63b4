import SharedWorld.Proofs.World.Passengers
import SharedWorld.Proofs.Zone.Destruction

/-! What a request makes of the crossings. Between two requests a shape is in one registration, or a
registration begins, with nobody inside. -/
namespace SharedWorld

open Store

theorem Store.perform_registry (s : Store) (op : Op) (a : ElementId) :
    (s.perform op).watchers? a = s.watchers? a ∨
      s.watchers? a = none ∧ (s.perform op).watchers? a = some {} := by
  rcases perform_watchers s op with same | ⟨id, free, new⟩
  · exact .inl (same a)
  · rw [new a]
    split
    · next ha =>
      refine .inr ⟨?_, rfl⟩
      rw [ha, Option.eq_none_iff_forall_ne_some]
      intro l hl
      exact free (contains_iff_watchers?.mpr ⟨l, hl⟩)
    · exact .inl rfl

namespace World
variable {w u v : World} {shape element : ElementId} {cs ds : List Crossing}

/-- The crossings of `cs` happen, and whoever listens before and after hears of them. -/
structure Told (shape element : ElementId) (cs : List Crossing) (w u : World) : Prop where
  path : Crossing.Path (w.presence shape element) cs (u.presence shape element)
  crossings : u.crossings shape element = w.crossings shape element ++ cs
  heard : ∀ f g, w.Listen shape f g → u.Listen shape f g →
    u.heard f g shape element = w.heard f g shape element ++ cs

theorem Course.told (h : Course shape element cs w u) : Told shape element cs w u :=
  ⟨h.path, h.crossings, fun f g hl _ => (h.heard f g hl).2⟩

/-- Somebody begins to keep track of the shape, and finds the element outside. -/
structure Begun (shape element : ElementId) (w u : World) : Prop where
  before : ¬ w.tracks shape
  type : u.store.type? shape = some .shape
  after : u.presence shape element = some false
  crossings : u.crossings shape element = w.crossings shape element

/-- What every request is like. -/
structure Regular (w u : World) : Prop where
  passage : ∀ shape element, (∃ cs, Told shape element cs w u) ∨ Begun shape element w u
  shut : ∀ id, u.Shut id → w.Shut id
  watched : w.Watched → u.Watched

theorem Orderly.regular (h : Orderly w u) : Regular w u where
  passage s e := .inl ((h.course s e).imp fun _ course => course.told)
  shut id := (h.shut id).mp
  watched := h.watched

theorem Regular.of_store {t : Store} (h : Regular { w with store := t } u)
    (shut : ∀ id, ({ w with store := t } : World).Shut id → w.Shut id)
    (watched : w.Watched → ({ w with store := t } : World).Watched) : Regular w u where
  passage s e := (h.passage s e).imp (fun ⟨cs, told⟩ => ⟨cs, told.path, told.crossings, told.heard⟩)
    fun begun => ⟨begun.before, begun.type, begun.after, begun.crossings⟩
  shut id := shut id ∘ h.shut id
  watched := h.watched ∘ watched

theorem stored_shut (w : World) (op : Store.Op) (id : ElementId) :
    ({ w with store := w.store.perform op } : World).Shut id ↔ w.Shut id := by
  unfold Shut
  rcases perform_registry w.store op id with same | ⟨absent, new⟩
  · simp only [same]
  · simp [absent, new]

theorem stored_watched (h : w.Watched) (op : Store.Op) :
    ({ w with store := w.store.perform op } : World).Watched := by
  have kept {id : ElementId} {entry : SubscriptionId × Watcher} (held : w.Holds id entry) :
      ({ w with store := w.store.perform op } : World).Holds id entry := by
    obtain ⟨l, hl, held⟩ := held
    refine ⟨l, ?_, held⟩
    cases perform_registry w.store op id with
    | inl same => exact same.trans hl
    | inr new => exact absurd (new.1.symm.trans hl) nofun
  refine ⟨fun {id l} hl => ?_, fun hz hm => kept (h.member hz hm), fun hs => ?_⟩
  · rcases perform_registry w.store op id with same | ⟨_, new⟩
    · exact h.numbered (same.symm.trans hl)
    · cases new.symm.trans hl
      exact .empty
  · exact (h.zone hs).imp fun _ => kept

theorem stored_orderly (w : World) (op : Store.Op) :
    Orderly w { w with store := w.store.perform op } where
  course _ e := ⟨[], .silent rfl (fun _ _ => rfl) (stored_shut w op e) (.inl rfl)⟩
  watched h := stored_watched h op

theorem watch_orderly (w : World) (id : ElementId) (watcher : Watcher) :
    Orderly w (w.watch id watcher).2 := by
  rcases watch_cases w id watcher with ⟨err, h, _⟩ | ⟨l, hl, _, h⟩
  · rw [h]
    exact .refl w
  · rw [h]
    have shut := withWatchers_shut hl (subscribe_closed l watcher)
    exact ⟨fun _ e => ⟨[], .silent rfl (fun _ _ => rfl) (shut e) (.inl rfl)⟩,
      fun hw => hw.subscribe hl watcher⟩

theorem unwatch_orderly {id : ElementId} {sub : SubscriptionId}
    (spent : ∀ l, w.store.watchers? id = some l → ∀ watcher, (sub, watcher) ∈ l.entries →
      w.Spent id sub watcher) : Orderly w (w.unwatch id sub).2 where
  course _ _ := ⟨[], unwatch_course w id sub⟩
  watched h := h.unwatch fun l hl _ => spent l hl

theorem register_cases (w : World) (shape : ElementId) :
    (w.register shape).2 = w ∨ ∃ l, ¬ w.tracks shape ∧ w.store.type? shape = some .shape ∧
      w.store.watchers? shape = some l ∧ l.closed = false ∧ (w.register shape).2 =
        { w.withWatchers shape (l.subscribe .shape).2 with zones := w.zones.insert shape {} } := by
  unfold register
  split
  · exact .inl rfl
  · next type =>
    split
    · exact .inl rfl
    · next unknown =>
      rcases watch_cases w shape .shape with ⟨err, h, _⟩ | ⟨l, hl, opened, h⟩
      · rw [h]
        exact .inl rfl
      · rw [h]
        exact .inr ⟨l, unknown, type, hl, opened, rfl⟩
  · exact .inl rfl

theorem register_regular (w : World) (shape : ElementId) : Regular w (w.register shape).2 := by
  rcases register_cases w shape with h | ⟨l, unknown, type, hl, opened, h⟩
  · rw [h]
    exact (Orderly.refl w).regular
  · rw [h]
    have shut := withWatchers_shut hl (subscribe_closed l .shape)
    refine ⟨fun s e => ?_, fun id => (shut id).mp, fun hw => ?_⟩
    · by_cases hs : s = shape
      · subst hs
        refine .inr ⟨unknown, ?_, by simp [presence, Table.contains], rfl⟩
        unfold type? withWatchers
        rw [find?_modifyWatchers]
        exact type
      · have same := Table.find?_insert_of_ne w.zones hs {}
        exact .inl ⟨[], Course.told (.silent rfl (fun _ _ => rfl) (shut e) (.inl same))⟩
    · exact (hw.subscribe hl .shape).addZone (subscribe_holds hl opened .shape)

theorem createShape_cases (w : World) (geometry : Shape) (position : Vec3) : ∃ inserted,
    inserted = { w with store := w.store.perform (.insert { kind := .shape geometry, position }) } ∧
    ((w.createShape geometry position).2 = inserted ∨
      ∃ id, (w.createShape geometry position).2 = (inserted.register id).2) := by
  unfold createShape
  cases hi : w.insert { kind := .shape geometry, position } with
  | mk answer inserted =>
    refine ⟨inserted, (congrArg Prod.snd hi).symm, ?_⟩
    cases answer with
    | error err => exact .inl rfl
    | ok id =>
      refine .inr ⟨id, ?_⟩
      dsimp only
      cases inserted.register id with
      | mk answer u => cases answer <;> rfl

theorem createShape_regular (w : World) (geometry : Shape) (position : Vec3) :
    Regular w (w.createShape geometry position).2 := by
  obtain ⟨inserted, rfl, done⟩ := createShape_cases w geometry position
  have stored := stored_orderly w (.insert { kind := .shape geometry, position })
  cases done with
  | inl h =>
    rw [h]
    exact stored.regular
  | inr h =>
    obtain ⟨id, h⟩ := h
    rw [h]
    exact (register_regular _ id).of_store (fun a => (stored.shut a).mp) stored.watched

theorem find?_modifyZone (w : World) (s a : ElementId) (f : Zone → Zone) :
    (w.modifyZone s f).zones.find? a =
      if a = s then (w.zones.find? a).map f else w.zones.find? a :=
  Table.find?_modify_eq ..

def Retuned (w u : World) : Prop :=
  u = w ∨ ∃ s f, (∀ z : Zone, (f z).members = z.members) ∧ u = w.modifyZone s f

theorem modifyZone_regular (f : Zone → Zone) (members : ∀ z, (f z).members = z.members) (w : World)
    (s : ElementId) : Regular w (w.modifyZone s f) where
  passage shape element := by
    refine .inl ⟨[], ?_, (List.append_nil _).symm, fun _ _ _ _ => (List.append_nil _).symm⟩
    have same : (w.modifyZone s f).presence shape element = w.presence shape element := by
      unfold presence
      rw [find?_modifyZone]
      split
      · simp [Function.comp_def, members]
      · rfl
    rw [same]
    exact .stay _
  shut _ h := h
  watched h := h.modifyZone fun z element sub hm => .inl (members z ▸ hm)

theorem Retuned.regular (h : Retuned w u) : Regular w u := by
  rcases h with rfl | ⟨s, f, members, rfl⟩
  · exact (Orderly.refl u).regular
  · exact modifyZone_regular f members w s

theorem unsubscribe_retuned (w : World) (shape : ElementId) (sub : SubscriptionId) :
    Retuned w (w.unsubscribe shape sub).2 := by
  unfold unsubscribe
  cases w.zones.find? shape with
  | none => exact .inl rfl
  | some z =>
    dsimp only
    split
    · next registry _ => exact .inr ⟨shape, ({ · with entered := registry }), fun _ => rfl, rfl⟩
    · exact .inr ⟨shape, ({ · with left := (z.left.unsubscribe sub).2 }), fun _ => rfl, rfl⟩

theorem setEnabled_retuned {shape : ElementId} {enabled : Bool}
    (h : w.setEnabled shape enabled = .ok u) : Retuned w u := by
  obtain ⟨z, _, h⟩ := bind_eq_ok.mp h
  cases h
  exact .inr ⟨shape, ({ · with enabled }), fun _ => rfl, rfl⟩

theorem onCrossing_retuned {shape : ElementId} {crossing : Crossing} {tag : String}
    {sub : SubscriptionId} (h : w.onCrossing shape crossing tag = .ok (sub, u)) : Retuned w u := by
  unfold onCrossing at h
  obtain ⟨z, _, h⟩ := bind_eq_ok.mp h
  dsimp only at h
  split at h <;> cases h
  exact .inr ⟨shape, _, fun z => by cases crossing <;> rfl, rfl⟩

theorem editPolygon_eq {shape : ElementId} {index : Nat}
    {edit : List Vec2 → Except WorldError (Nat × List Vec2)}
    (h : w.editPolygon shape edit = .ok (index, u)) : ∃ f,
      u = ({ w with store := w.store.modify shape f } : World).publish
        (.polygonPointChanged shape index) := by
  unfold editPolygon at h
  split at h
  · cases h
  split at h
  · cases h
  split at h
  · cases h
  obtain ⟨edited, _, h⟩ := bind_eq_ok.mp h
  cases h
  exact ⟨_, rfl⟩

theorem editPolygon_orderly {shape : ElementId} {index : Nat}
    {edit : List Vec2 → Except WorldError (Nat × List Vec2)}
    (h : w.editPolygon shape edit = .ok (index, u)) : Orderly w u := by
  obtain ⟨f, rfl⟩ := editPolygon_eq h
  have same (id : ElementId) : (w.store.modify shape f).watchers? id = w.store.watchers? id :=
    watchers?_modify ..
  refine ⟨fun s e => ⟨[], .silent ?_ (fun _ _ => rfl) ?_ (.inl rfl)⟩, fun hw => ?_⟩
  · unfold crossings publish
    rw [List.filterMap_append]
    exact List.append_nil _
  · unfold Shut publish
    simp only [same]
  · refine ⟨fun hl => hw.numbered ((same _).symm.trans hl), fun hz hm => ?_, fun hs => ?_⟩
    · obtain ⟨l, hl, held⟩ := hw.member hz hm
      exact ⟨l, (same _).trans hl, held⟩
    · obtain ⟨sub, l, hl, held⟩ := hw.zone hs
      exact ⟨sub, l, (same _).trans hl, held⟩

/-- A subscription that the world relies on is taken back by nobody else. -/
def Op.Fair (w : World) : Op → Prop
  | .unwatch id sub => ∀ l, w.store.watchers? id = some l →
      ∀ watcher, (sub, watcher) ∈ l.entries → w.Spent id sub watcher
  | _ => True

theorem perform_regular (w : World) {op : Op} (fair : op.Fair w) : Regular w (w.perform op) := by
  have refused : Regular w w := (Orderly.refl w).regular
  cases op with
  | store op => exact (stored_orderly w op).regular
  | remove id => exact (removeWithin_orderly _ id w).regular
  | watch id watcher => exact (watch_orderly w id watcher).regular
  | unwatch id sub => exact (unwatch_orderly fair).regular
  | createShape geometry position => exact createShape_regular w geometry position
  | register shape => exact register_regular w shape
  | forget shape => exact (forget_orderly w shape).regular
  | setEnabled shape enabled => exact after_cases refused fun _ h => (setEnabled_retuned h).regular
  | onCrossing shape crossing tag =>
    exact after_map_cases refused fun _ _ h => (onCrossing_retuned h).regular
  | unsubscribe shape sub => exact (unsubscribe_retuned w shape sub).regular
  | check shape element => exact (check_orderly w shape element).regular
  | checkEverywhere element => exact (checkAll_orderly _ w).regular
  | runPass => exact (runPass_orderly w).regular
  | addVertex shape p index =>
    exact after_map_cases refused fun _ _ h => (editPolygon_orderly h).regular
  | setVertex shape index p =>
    refine after_cases refused fun _ h => ?_
    obtain ⟨_, _, h⟩ := setVertex_edits h
    exact (editPolygon_orderly h).regular
  | removeVertex shape index =>
    refine after_map_cases refused fun _ _ h => ?_
    obtain ⟨_, _, h⟩ := removeVertex_edits h
    exact (editPolygon_orderly h).regular

/-- Something holds of every request of a run when its turn comes. -/
def Along (P : World → Op → Prop) : World → List Op → Prop
  | _, [] => True
  | w, op :: ops => P w op ∧ Along P (w.perform op) ops

theorem along_append {P : World → Op → Prop} {ops ops' : List Op} :
    Along P w (ops ++ ops') ↔ Along P w ops ∧ Along P (w.run ops) ops' := by
  induction ops generalizing w with
  | nil => simp [Along, run]
  | cons op ops ih => simp only [List.cons_append, Along, ih, and_assoc, run, List.foldl_cons]

def FairRun : World → List Op → Prop := Along fun w op => op.Fair w

/-- Whoever needs a watcher has one, nobody is on the way out, and only shapes are kept track of. -/
structure Settled (w : World) : Prop where
  linked : w.store.Linked
  watched : w.Watched
  opened : ∀ id, ¬ w.Shut id
  typed : ∀ shape, w.tracks shape → w.store.type? shape = some .shape

theorem perform_type? (ok : w.store.Linked) (op : Op) {a : ElementId} (before : w.store.contains a)
    (after : (w.perform op).store.contains a) :
    (w.perform op).store.type? a = w.store.type? a := by
  rcases perform_effect ok op with h | ⟨t, out, h⟩
  · exact (h.thinned ok).type? a after
  · rw [h.type?, out.type?_of_live before]

theorem Watched.live (h : w.Watched) {shape : ElementId} (tracked : w.tracks shape) :
    w.store.contains shape := by
  obtain ⟨_, l, hl, _⟩ := h.zone tracked
  exact contains_iff_watchers?.mpr ⟨l, hl⟩

theorem Settled.perform (h : w.Settled) {op : Op} (fair : op.Fair w) : (w.perform op).Settled := by
  have regular := perform_regular w fair
  have watched := regular.watched h.watched
  refine ⟨(perform_linked h.linked op).1, watched, fun id => h.opened id ∘ regular.shut id,
    fun shape tracked => ?_⟩
  by_cases before : w.tracks shape
  · rw [perform_type? h.linked op (h.watched.live before) (watched.live tracked)]
    exact h.typed shape before
  · rcases regular.passage shape shape with ⟨cs, told⟩ | begun
    · have path := told.path
      rw [presence_eq_none.mpr before] at path
      exact absurd tracked (presence_eq_none.mp path.of_none.2)
    · exact begun.type

theorem Settled.run (h : w.Settled) {ops : List Op} (fair : FairRun w ops) :
    (w.run ops).Settled := by
  induction ops generalizing w with
  | nil => exact h
  | cons op ops ih => exact ih (h.perform fair.1) fair.2

theorem fresh_watchers? {cellSize : Single} {ids : IdSource} {root id : ElementId}
    {l : Listeners Watcher} (h : (fresh cellSize ids root).store.watchers? id = some l) : l = {} := by
  unfold fresh withRoot watchers? at h
  dsimp only at h
  rw [Table.find?_insert] at h
  split at h
  · exact (Option.some.inj h).symm
  · cases h

theorem fresh_settled (cellSize : Single) (ids : IdSource) (root : ElementId) :
    (fresh cellSize ids root).Settled := by
  refine ⟨fresh_linked cellSize ids root, ⟨fun hl => ?_, nofun, nofun⟩, fun id shut => ?_, nofun⟩
  · rw [fresh_watchers? hl]
    exact .empty
  · obtain ⟨l, hl, closed⟩ := shut
    rw [fresh_watchers? hl] at closed
    cases closed

end World
end SharedWorld
