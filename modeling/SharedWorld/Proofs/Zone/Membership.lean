import SharedWorld.Proofs.Zone.Enrolled

/-! Runs of requests, and which of them leave the members of shapes without a watcher. Only those who
take back a subscription that is not theirs do, and nothing else that is asked of a world. -/
namespace SharedWorld

open Store

namespace World
variable {w u : World} {shape id : ElementId} {sub : SubscriptionId} {l : Listeners Watcher}
  {ops : List Op}

/-- Those outside watch only to take note. -/
def Op.Outside : Op → Prop
  | .watch _ watcher => ∃ tag checked removed, watcher = .note tag checked removed
  | _ => True

/-- No watcher that stands for a member is taken back by the request itself. -/
def Op.Spares (w : World) : Op → Prop
  | .unwatch id sub => ∀ l, w.store.watchers? id = some l → ∀ s, (sub, .member s) ∉ l.entries
  | _ => True

theorem keeps_stored (w : World) (op : Store.Op) :
    Keeps w { w with store := w.store.perform op } where
  backed ok := by
    have before {a : ElementId} {l : Listeners Watcher}
        (h : (w.store.perform op).watchers? a = some l) : w.store.watchers? a = some l ∨ l = {} := by
      rcases perform_registry w.store op a with same | ⟨_, new⟩
      · exact .inl (same.symm.trans h)
      · exact .inr (Option.some.inj (h.symm.trans new))
    refine ⟨fun h => ?_, fun h closed => ?_, fun h hin => ?_⟩
    · rcases before h with h | rfl
      · exact ok.sorted h
      · exact .empty
    · rcases before h with h | rfl
      · exact ok.drained h closed
      · rfl
    · rcases before h with h | rfl
      · exact ok.known h hin
      · cases hin
  attended _ att := fun {_ id _} hm => by
    obtain ⟨l, hl, held⟩ := att hm
    refine ⟨l, ?_, held⟩
    rcases perform_registry w.store op id with same | ⟨absent, _⟩
    · exact same.trans hl
    · exact absurd (absent.symm.trans hl) nofun

theorem Retuned.keeps (h : Retuned w u) : Keeps w u := by
  rcases h with rfl | ⟨s, f, members, rfl⟩
  · exact .refl u
  refine .of_same (fun _ => rfl) fun shape a x => ?_
  rw [enlists_modifyZone]
  split
  · next same => simp [same, members, Enlists]
  · exact Iff.rfl

theorem keeps_register (w : World) (s : ElementId) : Keeps w (w.register s).2 := by
  rcases register_cases w s with h | ⟨l, unknown, _, hl, opened, h⟩
  · rw [h]
    exact .refl w
  · rw [h]
    have own : ∀ s, Watcher.shape ≠ .member s := nofun
    refine (keeps_subscribe hl opened own).trans ?_
    refine .of_same (fun _ => rfl) fun shape a x => ?_
    unfold Enlists
    dsimp only
    rw [Table.find?_insert]
    split
    · next same =>
      have none : w.zones.find? s = none := by simpa [tracks, Table.contains] using unknown
      have nobody : ({} : Zone).members.find? a = Option.none := rfl
      simp [same, none, World.withWatchers, nobody]
    · exact Iff.rfl

theorem keeps_createShape (w : World) (geometry : Shape) (position : Vec3) :
    Keeps w (w.createShape geometry position).2 := by
  obtain ⟨inserted, rfl, h | ⟨id, h⟩⟩ := createShape_cases w geometry position
  · rw [h]
    exact keeps_stored w _
  · rw [h]
    exact (keeps_stored w _).trans (keeps_register _ id)

theorem keeps_watch (w : World) (id : ElementId) {watcher : Watcher}
    (outside : (Op.watch id watcher).Outside) : Keeps w (w.watch id watcher).2 := by
  obtain ⟨tag, checked, removed, rfl⟩ := outside
  rcases watch_cases w id (.note tag checked removed) with ⟨_, h, _⟩ | ⟨l, hl, opened, h⟩
  · rw [h]
    exact .refl w
  · rw [h]
    exact keeps_subscribe hl opened nofun

theorem unwatch_enlists {a : ElementId} {x : SubscriptionId} :
    (w.unwatch id sub).2.Enlists shape a x ↔ w.Enlists shape a x := by
  unfold Enlists
  rw [unwatch_zones]

theorem unwatch_backed (ok : w.Backed) (id : ElementId) (sub : SubscriptionId) :
    (w.unwatch id sub).2.Backed :=
  (unwatch_drops w id sub).backed (fun _ _ _ hm _ => unwatch_enlists.mpr hm) ok

theorem keeps_unwatch (spares : (Op.unwatch id sub).Spares w) : Keeps w (w.unwatch id sub).2 := by
  refine ⟨fun ok => unwatch_backed ok id sub, fun _ att s a x hm => ?_⟩
  refine (unwatch_drops w id sub).holds (att (unwatch_enlists.mp hm)) fun l hl hin => ?_
  refine decide_eq_false ?_
  rintro ⟨rfl, rfl⟩
  exact spares l hl s hin

theorem unwatch_breaks (ok : w.Backed) (hl : w.store.watchers? id = some l) {s : ElementId}
    (hin : (sub, .member s) ∈ l.entries) : ¬ (w.unwatch id sub).2.Attended := by
  intro att
  obtain ⟨l', hl', held⟩ := att (unwatch_enlists.mpr (ok.known hl hin))
  rw [unwatch_drops, hl] at hl'
  cases hl'
  cases closed : l.closed with
  | true =>
    rw [ok.drained hl closed] at hin
    cases hin
  | false => simpa using (List.mem_filter.mp (held closed)).2

theorem keeps_editPolygon {index : Nat} {edit : List Vec2 → Except WorldError (Nat × List Vec2)}
    (h : w.editPolygon shape edit = .ok (index, u)) : Keeps w u := by
  obtain ⟨f, rfl⟩ := editPolygon_eq h
  exact .of_same (watchers?_modify _ shape · f) fun _ _ _ => Iff.rfl

theorem keeps_perform (w : World) {op : Op} (outside : op.Outside) (spares : op.Spares w) :
    Keeps w (w.perform op) := by
  have refused : Keeps w w := .refl w
  cases op with
  | store op => exact keeps_stored w op
  | remove id => exact keeps_removeWithin _ id w
  | watch id watcher => exact keeps_watch w id outside
  | unwatch id sub => exact keeps_unwatch spares
  | createShape geometry position => exact keeps_createShape w geometry position
  | register s => exact keeps_register w s
  | forget s => exact keeps_forget w s
  | setEnabled s enabled =>
    exact after_cases refused fun _ h => (setEnabled_retuned h).keeps
  | onCrossing s crossing tag =>
    exact after_map_cases refused fun _ _ h => (onCrossing_retuned h).keeps
  | unsubscribe s sub => exact (unsubscribe_retuned w s sub).keeps
  | check s e => exact keeps_check w s e
  | checkEverywhere e => exact checkAll_lifts .refl .trans keeps_check _ w
  | runPass => exact pass_lifts .refl .trans keeps_check _ w
  | addVertex s p index => exact after_map_cases refused fun _ _ => keeps_editPolygon
  | setVertex s index p =>
    refine after_cases refused fun _ h => ?_
    obtain ⟨_, _, h⟩ := setVertex_edits h
    exact keeps_editPolygon h
  | removeVertex s index =>
    refine after_map_cases refused fun _ _ h => ?_
    obtain ⟨_, _, h⟩ := removeVertex_edits h
    exact keeps_editPolygon h

theorem perform_backed (ok : w.Backed) {op : Op} (outside : op.Outside) : (w.perform op).Backed := by
  cases op with
  | unwatch id sub => exact unwatch_backed ok id sub
  | _ => exact (keeps_perform w outside trivial).backed ok

theorem perform_opened (opened : ∀ id, ¬ w.Shut id) (op : Op) (id : ElementId) :
    ¬ (w.perform op).Shut id := by
  cases op with
  | unwatch a sub => exact fun shut => opened id ((unwatch_shut w a sub id).mp shut)
  | _ =>
    refine fun shut => opened id ((perform_regular w ?_).shut id shut)
    trivial

/-- Every member of a shape is there, and has one watcher on account of the shape, under the number
that the shape knows. -/
def Enrolled (w : World) : Prop := ∀ shape id sub, w.Enlists shape id sub →
  ∃ l, w.store.watchers? id = some l ∧
    l.entries.filter (fun e => e.2 = .member shape) = [(sub, .member shape)]

/-- What is in step between two requests. -/
structure Steady (w : World) : Prop where
  backed : w.Backed
  opened : ∀ id, ¬ w.Shut id

theorem Steady.enrolled_iff (h : w.Steady) : w.Enrolled ↔ w.Attended := by
  constructor
  · intro all shape id sub hm
    obtain ⟨l, hl, one⟩ := all shape id sub hm
    have there : (sub, .member shape) ∈ l.entries.filter (fun e => e.2 = .member shape) := by
      simp [one]
    exact ⟨l, hl, fun _ => (List.mem_filter.mp there).1⟩
  · intro att shape id sub hm
    obtain ⟨l, hl, held⟩ := att hm
    have opened : l.closed = false := Bool.eq_false_iff.mpr fun closed => h.opened id ⟨l, hl, closed⟩
    exact ⟨l, hl, h.backed.single hm hl (held opened)⟩

theorem Steady.perform (h : w.Steady) {op : Op} (outside : op.Outside) : (w.perform op).Steady :=
  ⟨perform_backed h.backed outside, perform_opened h.opened op⟩

theorem Steady.run (h : w.Steady) (outside : ∀ op ∈ ops, op.Outside) : (w.run ops).Steady := by
  induction ops generalizing w with
  | nil => exact h
  | cons op ops ih =>
    exact ih (h.perform (outside op List.mem_cons_self)) fun o ho => outside o (List.mem_cons_of_mem _ ho)

theorem Steady.attended_iff (h : w.Steady) (att : w.Attended) (outside : ∀ op ∈ ops, op.Outside) :
    (∀ earlier later, ops = earlier ++ later → (w.run earlier).Attended) ↔
      Along (fun w op => op.Spares w) w ops := by
  induction ops generalizing w with
  | nil =>
    refine iff_of_true (fun earlier later nil => ?_) trivial
    rw [(List.append_eq_nil_iff.mp nil.symm).1]
    exact att
  | cons op ops ih =>
    have first := outside op List.mem_cons_self
    have rest := fun o ho => outside o (List.mem_cons_of_mem _ ho)
    constructor
    · intro all
      have next : (w.perform op).Attended := all [op] ops rfl
      refine ⟨?_, (ih (h.perform first) next rest).mp fun earlier later split => ?_⟩
      · cases op with
        | unwatch id sub => exact fun l hl s hin => unwatch_breaks h.backed hl hin next
        | _ => trivial
      · exact all (op :: earlier) later (congrArg _ split)
    · rintro ⟨spares, along⟩ earlier later split
      cases earlier with
      | nil => exact att
      | cons o earlier =>
        cases split
        exact (ih (h.perform first) ((keeps_perform w first spares).attended h.backed att) rest).mpr
          along earlier later rfl

theorem Steady.spares (h : w.Steady) (outside : ∀ op ∈ ops, op.Outside) (fair : FairRun w ops) :
    Along (fun w op => op.Spares w) w ops := by
  induction ops generalizing w with
  | nil => trivial
  | cons op ops ih =>
    have first := outside op List.mem_cons_self
    refine ⟨?_, ih (h.perform first) (fun o ho => outside o (List.mem_cons_of_mem _ ho)) fair.2⟩
    cases op with
    | unwatch id sub =>
      intro l hl s hin
      obtain ⟨z, hz, hm⟩ := h.backed.known hl hin
      exact fair.1 l hl _ hin z hz hm
    | _ => trivial

theorem fresh_steady (cellSize : Single) (ids : IdSource) (root : ElementId) :
    (fresh cellSize ids root).Steady := by
  refine ⟨⟨fun hl => ?_, fun hl _ => ?_, fun hl hin => ?_⟩, (fresh_settled cellSize ids root).opened⟩
  · rw [fresh_watchers? hl]
    exact .empty
  · rw [fresh_watchers? hl]
  · rw [fresh_watchers? hl] at hin
    cases hin

/-- Whatever is asked of a world, a watcher that stands for a member goes when the membership does. Every
member keeps its own as long as nobody takes that back with a number of another registry, or of one that
is gone; and as long as nobody does so to the world's other watchers, only shapes are kept track of. -/
theorem run_enrolled (cellSize : Single) (ids : IdSource) (root : ElementId) (ops : List Op)
    (outside : ∀ op ∈ ops, op.Outside) :
    let w := fresh cellSize ids root
    (∀ id l sub shape, (w.run ops).store.watchers? id = some l → (sub, .member shape) ∈ l.entries →
      (w.run ops).Enlists shape id sub) ∧
    ((∀ earlier later, ops = earlier ++ later → (w.run earlier).Enrolled) ↔
      Along (fun w op => op.Spares w) w ops) ∧
    (FairRun w ops → Along (fun w op => op.Spares w) w ops ∧
      ∀ shape, (w.run ops).tracks shape → (w.run ops).store.type? shape = some .shape) := by
  intro w
  have steady : w.Steady := fresh_steady cellSize ids root
  have attended : w.Attended := fun hm => by
    obtain ⟨_, none, _⟩ := hm
    cases none
  refine ⟨fun id l sub shape => (steady.run outside).backed.known, ?_, fun fair => ?_⟩
  · rw [← steady.attended_iff attended outside]
    refine forall_congr' fun earlier => forall_congr' fun later => forall_congr' fun split => ?_
    refine (steady.run fun op hop => outside op ?_).enrolled_iff
    rw [split]
    exact List.mem_append_left _ hop
  · exact ⟨steady.spares outside fair, ((fresh_settled cellSize ids root).run fair).typed⟩

def returning : List Op :=
  [.createShape (.sphere (.ofNat 10)) .zero, .store (.insert { kind := .object 1 }),
    .watch ⟨2⟩ (.note "bye" none none), .remove ⟨2⟩,
    .store (.insert { kind := .object 1, id := ⟨2⟩ }), .check ⟨1⟩ ⟨2⟩]

theorem returning_enrolled :
    let w := fresh Grid.defaultCellSize (.counter 1) ⟨0⟩
    (∀ op ∈ returning, op.Outside) ∧ FairRun w returning ∧ (w.run returning).isMember ⟨1⟩ ⟨2⟩ ∧
      (w.run returning).Enrolled ∧ (w.run returning).store.type? ⟨1⟩ = some .shape := by
  intro w
  have outside : ∀ op ∈ returning, op.Outside := by
    simp [returning, Op.Outside]
  have fair : FairRun w returning := ⟨trivial, trivial, trivial, trivial, trivial, trivial, trivial⟩
  obtain ⟨_, always, typed⟩ := run_enrolled Grid.defaultCellSize (.counter 1) ⟨0⟩ returning outside
  obtain ⟨spares, shapes⟩ := typed fair
  exact ⟨outside, fair, by decide +kernel, always.mpr spares returning [] (List.append_nil _).symm,
    shapes ⟨1⟩ (by decide +kernel)⟩

/-- Who still has the number of the first subscription takes back that of the sphere, and the object
does not leave it when it goes. -/
theorem ghost_stays :
    let w := (fresh Grid.defaultCellSize (.counter 1) ⟨0⟩).run (returning ++ [.unwatch ⟨2⟩ ⟨0⟩])
    ¬ w.Enrolled ∧ (w.perform (.remove ⟨2⟩)).isMember ⟨1⟩ ⟨2⟩ ∧
      ¬ (w.perform (.remove ⟨2⟩)).store.contains ⟨2⟩ ∧
      (w.perform (.remove ⟨2⟩)).crossings ⟨1⟩ ⟨2⟩ = [.entered] := by
  intro w
  refine ⟨fun enrolled => ?_, by decide +kernel, by decide +kernel, by decide +kernel⟩
  have member : w.isMember ⟨1⟩ ⟨2⟩ := by decide +kernel
  have nobody : (w.store.watchers? ⟨2⟩).map (·.entries) = some [] := by decide +kernel
  obtain ⟨z, sub, hz, hm⟩ := isMember_iff.mp member
  obtain ⟨l, hl, one⟩ := enrolled _ _ _ ⟨z, hz, hm⟩
  rw [hl] at nobody
  have empty : l.entries = [] := Option.some.inj nobody
  rw [empty] at one
  cases one

end World
end SharedWorld
