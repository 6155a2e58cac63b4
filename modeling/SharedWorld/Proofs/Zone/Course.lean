import SharedWorld.Proofs.Zone.Registry

/-! What goes on between one shape and one element. Whatever a world does, the element goes in and out
of the shape by turns, and everybody is told of each turn. -/
namespace SharedWorld

namespace Crossing

def other : Crossing → Crossing
  | entered => left
  | left => entered

/-- The crossings take turns, and the first is `c`. -/
def Alternate : Crossing → List Crossing → Prop
  | _, [] => True
  | c, d :: rest => d = c ∧ Alternate c.other rest

/-- The ways that an element can take in and out of a shape, from where it stands to where it ends;
there is nowhere to stand while nobody keeps track of the shape. -/
inductive Path : Option Bool → List Crossing → Option Bool → Prop
  | stay (p : Option Bool) : Path p [] p
  | enter {cs : List Crossing} {q : Option Bool} : Path (some true) cs q →
    Path (some false) (entered :: cs) q
  | leave {cs : List Crossing} {q : Option Bool} : Path (some false) cs q →
    Path (some true) (left :: cs) q
  | forget (b : Bool) : Path (some b) [] none

namespace Path
variable {cs ds : List Crossing} {p q r : Option Bool} {a b : Bool}

theorem of_none (h : Path none cs q) : cs = [] ∧ q = none := by
  cases h
  exact ⟨rfl, rfl⟩

theorem append (h : Path p cs q) (h' : Path q ds r) : Path p (cs ++ ds) r := by
  induction h with
  | stay => exact h'
  | enter _ ih => exact .enter (ih h')
  | leave _ ih => exact .leave (ih h')
  | forget b =>
    obtain ⟨rfl, rfl⟩ := h'.of_none
    exact .forget b

theorem alternate (h : Path p cs q) : Alternate (if p = some true then left else entered) cs := by
  induction h with
  | stay | forget => trivial
  | enter _ ih => exact ⟨rfl, ih⟩
  | leave _ ih => exact ⟨rfl, ih⟩

theorem last (h : Path (some a) cs (some b)) : b = (cs.getLast?.map (· == entered)).getD a := by
  induction cs generalizing a with
  | nil =>
    cases h
    rfl
  | cons c cs ih =>
    cases h with
    | enter h =>
      rw [ih h, List.getLast?_cons]
      cases cs.getLast? <;> rfl
    | leave h =>
      rw [ih h, List.getLast?_cons]
      cases cs.getLast? <;> rfl

theorem inside_iff (h : Path p cs q) (outside : p ≠ some true) (there : q ≠ none) :
    q = some true ↔ cs.getLast? = some entered := by
  cases q with
  | none => exact absurd rfl there
  | some b =>
    cases p with
    | none => exact absurd h.of_none.2 nofun
    | some a =>
      have start : a = false := by simpa using outside
      subst start
      rw [Option.some_inj, h.last]
      cases cs.getLast? <;> simp

theorem of_not_entered (h : Path p cs q) (never : entered ∉ cs) :
    (p ≠ some true → cs = []) ∧ (cs = [] ∨ cs = [left]) ∧
      (q = some true → p = some true) ∧ (p = some true → q = some false → cs = [left]) := by
  cases h with
  | stay p => exact ⟨fun _ => rfl, .inl rfl, id, fun h h' => absurd (h.symm.trans h') (by simp)⟩
  | enter h => exact absurd List.mem_cons_self never
  | leave h =>
    cases h with
    | stay => exact ⟨fun h => absurd rfl h, .inr rfl, fun _ => rfl, fun _ _ => rfl⟩
    | enter h => exact absurd (List.mem_cons_of_mem _ List.mem_cons_self) never
    | forget => exact ⟨fun h => absurd rfl h, .inr rfl, fun _ => rfl, fun _ _ => rfl⟩
  | forget b => exact ⟨fun _ => rfl, .inl rfl, nofun, nofun⟩

end Path
end Crossing

def WorldEvent.crossing? (shape element : ElementId) : WorldEvent → Option Crossing
  | .shapeEntered s e => if s = shape ∧ e = element then some .entered else none
  | .shapeLeft s e => if s = shape ∧ e = element then some .left else none
  | _ => none

def Call.crossing? (first second : String) (shape element : ElementId) : Call → Option Crossing
  | .crossed tag .entered s e =>
    if s = shape ∧ e = element ∧ tag = first then some .entered else none
  | .crossed tag .left s e =>
    if s = shape ∧ e = element ∧ tag = second then some .left else none
  | _ => none

open Store

namespace World
variable {w u v : World}

def tracks (w : World) (shape : ElementId) : Bool := w.zones.contains shape

def isActive (w : World) (shape : ElementId) : Bool := (w.zones.find? shape).any (·.enabled)

def isMember (w : World) (shape element : ElementId) : Bool :=
  (w.zones.find? shape).any (·.members.contains element)

/-- Whether the element is a member, if somebody keeps track of the shape. -/
def presence (w : World) (shape element : ElementId) : Option Bool :=
  (w.zones.find? shape).map (·.members.contains element)

/-- What was published of the element and the shape. -/
def crossings (w : World) (shape element : ElementId) : List Crossing :=
  w.events.filterMap (·.crossing? shape element)

def heard (w : World) (first second : String) (shape element : ElementId) : List Crossing :=
  w.calls.filterMap (·.crossing? first second shape element)

/-- One listener hears of all who enter the shape, the other of all who leave, each once. -/
def Listen (w : World) (shape : ElementId) (first second : String) : Prop :=
  ∀ z, w.zones.find? shape = some z →
    z.entered.audience.count first = 1 ∧ z.left.audience.count second = 1

/-- The end of the element was announced, and it takes no more watchers. -/
def Shut (w : World) (id : ElementId) : Prop :=
  ∃ l, w.store.watchers? id = some l ∧ l.closed = true

theorem tracks_iff {shape : ElementId} : w.tracks shape ↔ ∃ z, w.zones.find? shape = some z := by
  simp [tracks, Table.contains, Option.isSome_iff_exists]

theorem isMember_iff {shape element : ElementId} : w.isMember shape element ↔
    ∃ z sub, w.zones.find? shape = some z ∧ z.members.find? element = some sub := by
  simp [isMember, Option.any_eq_true, Table.contains, Option.isSome_iff_exists]

theorem presence_eq_none {shape element : ElementId} :
    w.presence shape element = none ↔ ¬ w.tracks shape := by
  simp [presence, tracks, Table.contains]

theorem presence_eq_true {shape element : ElementId} :
    w.presence shape element = some true ↔ w.isMember shape element := by
  simp [presence, isMember, Option.any_eq_true]

theorem Shut.contains {id : ElementId} (h : w.Shut id) : w.store.contains id :=
  contains_iff_watchers?.mpr (h.imp fun _ hl => hl.1)

/-- On the way from `w` to `u` the element crosses the border of the shape as in `cs`. Everybody is
told of that and the listeners stay; nobody begins to keep track of the shape. Who takes no more
watchers does not enter. -/
structure Course (shape element : ElementId) (cs : List Crossing) (w u : World) : Prop where
  path : Crossing.Path (w.presence shape element) cs (u.presence shape element)
  crossings : u.crossings shape element = w.crossings shape element ++ cs
  heard : ∀ f g, w.Listen shape f g →
    u.Listen shape f g ∧ u.heard f g shape element = w.heard f g shape element ++ cs
  shut : u.Shut element ↔ w.Shut element
  outside : w.Shut element → .entered ∉ cs

namespace Course
variable {shape element : ElementId} {cs ds : List Crossing}

theorem refl (shape element : ElementId) (w : World) : Course shape element [] w w where
  path := .stay _
  crossings := (List.append_nil _).symm
  heard _ _ h := ⟨h, (List.append_nil _).symm⟩
  shut := Iff.rfl
  outside _ := List.not_mem_nil

theorem trans (h : Course shape element cs w u) (h' : Course shape element ds u v) :
    Course shape element (cs ++ ds) w v where
  path := h.path.append h'.path
  crossings := by rw [h'.crossings, h.crossings, List.append_assoc]
  heard f g hl := by
    obtain ⟨hu, first⟩ := h.heard f g hl
    obtain ⟨hv, second⟩ := h'.heard f g hu
    exact ⟨hv, by rw [second, first, List.append_assoc]⟩
  shut := h'.shut.trans h.shut
  outside hs hin := by
    rcases List.mem_append.mp hin with hin | hin
    · exact h.outside hs hin
    · exact h'.outside (h.shut.mpr hs) hin

theorem silent (crossings : u.crossings shape element = w.crossings shape element)
    (heard : ∀ f g, u.heard f g shape element = w.heard f g shape element)
    (shut : u.Shut element ↔ w.Shut element)
    (zone : u.zones.find? shape = w.zones.find? shape ∨ u.zones.find? shape = none) :
    Course shape element [] w u where
  path := by
    unfold presence
    rcases zone with h | h
    · rw [h]
      exact .stay _
    · rw [h]
      cases w.zones.find? shape with
      | none => exact .stay _
      | some z => exact .forget _
  crossings := crossings.trans (List.append_nil _).symm
  heard f g hl := by
    refine ⟨fun z hz => ?_, (heard f g).trans (List.append_nil _).symm⟩
    rcases zone with h | h
    · exact hl z (h.symm.trans hz)
    · exact absurd (h.symm.trans hz) nofun
  shut := shut
  outside _ := List.not_mem_nil

theorem congr (h : Course shape element cs w u) {w' u' : World} (zones : w'.zones = w.zones)
    (events : w'.events = w.events) (calls : w'.calls = w.calls) (zones' : u'.zones = u.zones)
    (events' : u'.events = u.events) (calls' : u'.calls = u.calls)
    (shut : u'.Shut element ↔ w'.Shut element) (before : w'.Shut element → w.Shut element) :
    Course shape element cs w' u' where
  path := by
    unfold presence
    rw [zones, zones']
    exact h.path
  crossings := by
    unfold World.crossings
    rw [events, events']
    exact h.crossings
  heard f g hl := by
    unfold Listen World.heard at *
    rw [zones', calls, calls']
    rw [zones] at hl
    exact h.heard f g hl
  shut := shut
  outside hs := h.outside (before hs)

end Course

end World
end SharedWorld
