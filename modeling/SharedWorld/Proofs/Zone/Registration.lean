import SharedWorld.Proofs.Zone.Pass

/-! One registration of a shape, from when somebody begins to keep track of it. Every element starts
outside, and goes in and out by turns. -/
namespace SharedWorld
namespace World
variable {w u : World} {shape element : ElementId} {cs : List Crossing}

def Lasts (shape : ElementId) : World → List Op → Prop := Along fun w _ => w.tracks shape

/-- The two listen when the run begins, and after each request. -/
def Listening (shape : ElementId) (f g : String) : World → List Op → Prop
  | w, [] => w.Listen shape f g
  | w, op :: ops => w.Listen shape f g ∧ Listening shape f g (w.perform op) ops

theorem Listening.first {f g : String} {ops : List Op} (h : Listening shape f g w ops) :
    w.Listen shape f g := by
  cases ops with
  | nil => exact h
  | cons op ops => exact h.1

theorem run_told {ops : List Op} (fair : FairRun w ops) (lasts : Lasts shape w ops)
    (element : ElementId) : ∃ cs,
      Crossing.Path (w.presence shape element) cs ((w.run ops).presence shape element) ∧
      (w.run ops).crossings shape element = w.crossings shape element ++ cs ∧
      ∀ f g, Listening shape f g w ops →
        (w.run ops).heard f g shape element = w.heard f g shape element ++ cs := by
  induction ops generalizing w with
  | nil => exact ⟨[], .stay _, (List.append_nil _).symm, fun _ _ _ => (List.append_nil _).symm⟩
  | cons op ops ih =>
    rcases (perform_regular w fair.1).passage shape element with ⟨cs, told⟩ | begun
    · obtain ⟨ds, path, crossings, heard⟩ := ih fair.2 lasts.2
      refine ⟨cs ++ ds, told.path.append path, ?_, fun f g hl => ?_⟩
      · rw [← List.append_assoc, ← told.crossings]
        exact crossings
      · rw [← List.append_assoc, ← told.heard f g hl.1 hl.2.first]
        exact heard f g hl.2
    -- No registration begins while one lasts.
    · exact absurd lasts.1 begun.before

theorem perform_untracked {op : Op} (fair : op.Fair w) (new : ¬ w.tracks shape)
    (element : ElementId) : (w.perform op).crossings shape element = w.crossings shape element ∧
      (w.perform op).presence shape element ≠ some true := by
  rcases (perform_regular w fair).passage shape element with ⟨cs, told⟩ | begun
  · have path := told.path
    rw [presence_eq_none.mpr new] at path
    obtain ⟨rfl, outside⟩ := path.of_none
    exact ⟨told.crossings.trans (List.append_nil _), by simp [outside]⟩
  · exact ⟨begun.crossings, by simp [begun.after]⟩

/-- With its end the element leaves the shape if it is inside, and nothing else is told of the two. -/
structure Exits (shape element : ElementId) (out : List Crossing) (w u : World) : Prop where
  crossings : u.crossings shape element = w.crossings shape element ++ out
  heard : ∀ f g, w.Listen shape f g →
    u.heard f g shape element = w.heard f g shape element ++ out
  nowhere : ¬ w.isMember shape element → out = []
  atMost : out = [] ∨ out = [.left]
  once : w.isMember shape element → u.tracks shape → out = [.left]
  after : ¬ u.isMember shape element

theorem Ended.exits_once (h : Ended element w u) (hw : w.Watched) (shape : ElementId) :
    ∃ out, Exits shape element out w u := by
  obtain ⟨out, course, never⟩ := h.exits shape
  obtain ⟨nowhere, atMost, _, once⟩ := course.path.of_not_entered never
  have after := h.outside hw shape
  refine ⟨out, course.crossings, fun f g hl => (course.heard f g hl).2, fun outside => ?_, atMost,
    fun member tracked => ?_, after⟩
  · exact nowhere fun inside => outside (presence_eq_true.mp inside)
  · refine once (presence_eq_true.mpr member) ?_
    cases hp : u.presence shape element with
    | none => exact absurd tracked (presence_eq_none.mp hp)
    | some b =>
      cases b with
      | false => rfl
      | true => exact absurd (presence_eq_true.mp hp) after

theorem remove_ended (h : w.Settled) (live : w.store.contains element)
    (notRoot : element ≠ w.store.root) :
    (∃ gone, (w.remove element).1 = .ok gone) ∧ Ended element w (w.remove element).2 := by
  rcases removeWithin_ended (w.store.size + 1) element w with ⟨_, _, reason⟩ | done
  · rcases reason with none | root | absent | shut
    · cases none
    · exact absurd root notRoot
    · exact absurd live absent
    · exact absurd shut (h.opened element)
  · exact done

@[simp] theorem announce_tracks (w : World) (s e a : ElementId) (c : Crossing) (z : Zone) :
    (w.announce s e c z).tracks a = w.tracks a := by
  rw [announce_eq]
  rfl

theorem check_tracks (w : World) (s e a : ElementId) : (w.check s e).2.tracks a = w.tracks a :=
  check_keeps (fun w => w.tracks a) (fun _ _ _ => announce_tracks ..) (fun _ _ => rfl)
    (fun _ _ _ => modifyZone_tracks ..) w

theorem memberDestroyed_tracks (w : World) (s e a : ElementId) :
    (w.memberDestroyed s e).tracks a = w.tracks a := by
  unfold memberDestroyed
  split
  · rfl
  · split
    · simp
    · rfl

theorem notify_tracks {remove : ElementId → World → Except WorldError Element × World}
    {id : ElementId} (other : id ≠ shape) {watchers : List Watcher}
    (tame : ∀ tag checked removed, .note tag checked (some removed) ∉ watchers) (w : World) :
    (notify remove id watchers w).tracks shape = w.tracks shape := by
  induction watchers generalizing w with
  | nil => rfl
  | cons watcher rest ih =>
    have rest (w : World) := ih (fun tag checked removed hin =>
      tame tag checked removed (List.mem_cons_of_mem _ hin)) w
    rw [notify_cons, rest]
    cases watcher with
    | member s => exact memberDestroyed_tracks w s id shape
    | shape => simp [heed, tracks, Table.contains, forget_zones, Ne.symm other]
    | note tag checked removed =>
      cases removed with
      | some removed => exact absurd List.mem_cons_self (tame tag checked removed)
      | none =>
        cases checked with
        | none => rfl
        | some s => exact check_tracks _ s id shape

theorem remove_tracks (other : element ≠ shape) (tame : ∀ l, w.store.watchers? element = some l →
    ∀ tag checked removed, .note tag checked (some removed) ∉ l.audience) :
    (w.remove element).2.tracks shape = w.tracks shape := by
  rcases removeWithin_told (w.store.size + 1) element w with
    ⟨_, h, _⟩ | ⟨n, l, told, _, hl, _, ht, h⟩
  · unfold remove
    rw [h]
  · have kept : told.tracks shape = w.tracks shape := by
      rw [ht, notify_tracks other (tame l hl)]
      rfl
    unfold remove
    rw [h]
    split
    · exact kept
    · exact kept

/-- What is known of a shape and an element in a registration that began between `before` and `begun`,
once the requests `ops` have been dealt with. -/
structure Registration (shape element : ElementId) (before begun : World) (ops : List Op) :
    Prop where
  -- the crossings alternate, and the last one tells where the element is
  published : ∃ cs, (begun.run ops).crossings shape element = before.crossings shape element ++ cs ∧
    Crossing.Alternate .entered cs ∧ ((begun.run ops).tracks shape →
      ((begun.run ops).isMember shape element ↔ cs.getLast? = some .entered))
  -- two listeners hear of the crossings while they listen, beginning with what comes next
  heard : ∀ earlier later f g, ops = earlier ++ later →
    Listening shape f g (begun.run earlier) later →
    ∃ cs, (begun.run ops).crossings shape element =
        (begun.run earlier).crossings shape element ++ cs ∧
      (begun.run ops).heard f g shape element = (begun.run earlier).heard f g shape element ++ cs ∧
      Crossing.Alternate (if (begun.run earlier).isMember shape element then .left else .entered) cs
  live : (begun.run ops).isMember shape element → (begun.run ops).store.contains element
  -- the element can be removed, and leaves the shape once if it is inside
  removed : (begun.run ops).store.contains element → element ≠ (begun.run ops).store.root →
    (∃ gone, ((begun.run ops).remove element).1 = .ok gone) ∧
    ∃ out, Exits shape element out (begun.run ops) ((begun.run ops).remove element).2
  -- the registration does not end with the element, unless a watcher of it removes something
  kept : element ≠ shape → (∀ l, (begun.run ops).store.watchers? element = some l →
      ∀ tag checked removed, .note tag checked (some removed) ∉ l.audience) →
    ((begun.run ops).remove element).2.tracks shape = (begun.run ops).tracks shape
  counted : Publishes (begun.run ops).runPass.1 (begun.run ops) (begun.run ops).runPass.2

theorem Watched.live_of_member (h : w.Watched) (member : w.isMember shape element) :
    w.store.contains element := by
  obtain ⟨z, sub, hz, hm⟩ := isMember_iff.mp member
  obtain ⟨l, hl, _⟩ := h.member hz hm
  exact Store.contains_iff_watchers?.mpr ⟨l, hl⟩

theorem Settled.registration (h : w.Settled) {first : Op} {ops : List Op} (fairFirst : first.Fair w)
    (fair : FairRun (w.perform first) ops) (new : ¬ w.tracks shape)
    (lasts : Lasts shape (w.perform first) ops) (element : ElementId) :
    Registration shape element w (w.perform first) ops := by
  have settled : ((w.perform first).run ops).Settled := (h.perform fairFirst).run fair
  obtain ⟨silent, outside⟩ := perform_untracked fairFirst new element
  refine ⟨?_, ?_, settled.watched.live_of_member, fun live notRoot => ?_, remove_tracks,
    runPass_publishes _⟩
  · obtain ⟨cs, path, crossings, _⟩ := run_told fair lasts element
    refine ⟨cs, by rw [crossings, silent], ?_, fun tracked => ?_⟩
    · have turns := path.alternate
      rwa [if_neg outside] at turns
    · rw [← presence_eq_true]
      refine path.inside_iff outside fun none => ?_
      exact presence_eq_none.mp none tracked
  · intro earlier later f g split listening
    subst split
    have fairLater := (along_append.mp fair).2
    have lastsLater := (along_append.mp lasts).2
    obtain ⟨cs, path, crossings, heard⟩ := run_told fairLater lastsLater element
    rw [run_run] at path crossings heard
    have turns := path.alternate
    simp only [presence_eq_true] at turns
    exact ⟨cs, crossings, heard f g listening, turns⟩
  · obtain ⟨success, ended⟩ := remove_ended settled live notRoot
    exact ⟨success, ended.exits_once settled.watched shape⟩

/-- Whatever is asked of a world, while a registration of a shape lasts every element enters it and
leaves it by turns. -/
theorem run_registration (cellSize : Single) (ids : IdSource) (root : ElementId) (past : List Op)
    (first : Op) (ops : List Op) (shape element : ElementId)
    (fair : FairRun (fresh cellSize ids root) (past ++ first :: ops))
    (new : ¬ ((fresh cellSize ids root).run past).tracks shape)
    (lasts : Lasts shape (((fresh cellSize ids root).run past).perform first) ops) :
    Registration shape element ((fresh cellSize ids root).run past)
      (((fresh cellSize ids root).run past).perform first) ops := by
  obtain ⟨fairPast, fairFirst, fairOps⟩ := along_append.mp fair
  have settled := (fresh_settled cellSize ids root).run fairPast
  exact settled.registration fairFirst fairOps new lasts element

def vigil : List Op :=
  [.onCrossing ⟨2⟩ .entered "in", .onCrossing ⟨2⟩ .left "out", .check ⟨2⟩ ⟨1⟩,
    .setEnabled ⟨2⟩ false, .remove ⟨1⟩]

theorem vigil_registration :
    let w := (fresh Grid.defaultCellSize (.counter 1) ⟨0⟩).run
      [.store (.insert { kind := .player { endpoint := ⟨7⟩ } })]
    let begun := w.perform (.createShape (.sphere (.ofNat 10)) .zero)
    ¬ w.tracks ⟨2⟩ ∧ Lasts ⟨2⟩ begun vigil ∧ Registration ⟨2⟩ ⟨1⟩ w begun vigil ∧
      (begun.run (vigil.take 4)).isMember ⟨2⟩ ⟨1⟩ ∧ ¬ (begun.run vigil).isMember ⟨2⟩ ⟨1⟩ ∧
      (begun.run (vigil.take 4)).crossings ⟨2⟩ ⟨1⟩ = [.entered] ∧
      (begun.run vigil).crossings ⟨2⟩ ⟨1⟩ = [.entered, .left] ∧
      (begun.run vigil).heard "in" "out" ⟨2⟩ ⟨1⟩ = [.entered, .left] := by
  intro w begun
  have new : ¬ w.tracks ⟨2⟩ := by decide
  have lasts : Lasts ⟨2⟩ begun vigil := ⟨by decide, by decide, by decide, by decide, by decide, trivial⟩
  have fair : FairRun (fresh Grid.defaultCellSize (.counter 1) ⟨0⟩)
      ([.store (.insert { kind := .player { endpoint := ⟨7⟩ } })] ++
        .createShape (.sphere (.ofNat 10)) .zero :: vigil) :=
    ⟨trivial, trivial, trivial, trivial, trivial, trivial, trivial, trivial⟩
  exact ⟨new, lasts, run_registration _ _ _ _ _ vigil ⟨2⟩ ⟨1⟩ fair new lasts, by decide, by decide,
    by decide, by decide, by decide⟩

end World
end SharedWorld
