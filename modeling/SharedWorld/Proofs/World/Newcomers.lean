import SharedWorld.Proofs.World.IdSource
import SharedWorld.Proofs.World.Visits

/-! The identifiers of new elements. A counter is always past every identifier that an element of its
world has had, the chosen ones included; so what it gives out is new, and an identifier comes back only
for somebody who asks for it. -/
namespace SharedWorld

namespace IdSource
variable {n m : UInt32} {id : ElementId}

theorem isValid_iff : id.isValid ↔ id.number < 0xffffffff := by
  obtain ⟨number⟩ := id
  have last : (0xffffffff : UInt32).toNat = 4294967295 := rfl
  have size := number.toNat_lt
  simp only [ElementId.isValid, ElementId.invalid, ne_eq, ElementId.mk.injEq, decide_eq_true_eq,
    ← UInt32.toNat_inj, UInt32.lt_iff_toNat_lt, last]
  omega

theorem next_counter (n : UInt32) :
    (∃ m, (counter n).next = (.ok ⟨n⟩, .counter m) ∧ m.toNat = n.toNat + 1) ∨
    (n = 0xffffffff ∧ (counter n).next = (.error .idSpaceExhausted, .counter n)) := by
  by_cases low : n < 0xffffffff
  · exact .inl ⟨n + 1, if_pos low, toNat_succ low⟩
  · refine .inr ⟨?_, if_neg low⟩
    have last : (0xffffffff : UInt32).toNat = 4294967295 := rfl
    have size := n.toNat_lt
    rw [UInt32.lt_iff_toNat_lt] at low
    rw [← UInt32.toNat_inj]
    omega

theorem reserve_counter (n : UInt32) (id : ElementId) : ∃ m, (counter n).reserve id = .counter m ∧
    m.toNat = if id.isValid then max n.toNat (id.number.toNat + 1) else n.toNat := by
  by_cases valid : id.isValid
  · have up := toNat_succ (isValid_iff.mp valid)
    by_cases low : n < id.number + 1
    · refine ⟨id.number + 1, by simp [reserve, valid, low], ?_⟩
      rw [UInt32.lt_iff_toNat_lt] at low
      rw [if_pos valid]
      omega
    · refine ⟨n, by simp [reserve, low], ?_⟩
      rw [UInt32.lt_iff_toNat_lt] at low
      rw [if_pos valid]
      omega
  · exact ⟨n, by simp [reserve, valid], by rw [if_neg valid]⟩

theorem reserve_past (n : UInt32) (valid : id.isValid) : ((counter n).reserve id).Past id := by
  obtain ⟨m, h, up⟩ := reserve_counter n id
  refine ⟨m, h, ?_⟩
  rw [if_pos valid] at up
  rw [UInt32.lt_iff_toNat_lt]
  omega

end IdSource

open IdSource

namespace Store
variable {s t : Store} {id : ElementId}

/-- The identifiers come from a counter that is past those of all elements. -/
structure Counted (s : Store) : Prop where
  counter : s.ids.IsCounter
  past : ∀ a, s.contains a → s.ids.Past a

/-- Its root is number zero, or took the first number of a counter. -/
def Founded (s : Store) : Prop := (∃ cellSize, s = withCellSize cellSize) ∨
  ∃ cellSize first, Store.new cellSize (.counter first) = .ok s

theorem Founded.counted (h : s.Founded) : s.Counted := by
  have rooted (cellSize : Single) (n : UInt32) (root : ElementId) (below : root.number < n) :
      (withRoot cellSize (.counter n) root).Counted := by
    refine ⟨⟨n, rfl⟩, fun a live => ⟨n, rfl, ?_⟩⟩
    rw [contains_iff, find?_withRoot] at live
    obtain ⟨e, he⟩ := live
    split at he
    · next here => exact here ▸ below
    · cases he
  rcases h with ⟨cellSize, rfl⟩ | ⟨cellSize, first, h⟩
  · exact rooted cellSize 1 ⟨0⟩ (by decide)
  · by_cases low : first < 0xffffffff
    · rw [Store.new, next, if_pos low] at h
      cases h
      exact rooted cellSize (first + 1) ⟨first⟩ (lt_succ low)
    · rw [Store.new, next, if_neg low] at h
      cases h

theorem Founded.rooted (h : s.Founded) : s.contains s.root := by
  have rooted (cellSize : Single) (ids : IdSource) (root : ElementId) :
      (withRoot cellSize ids root).contains root := by
    rw [contains_iff, find?_withRoot]
    exact ⟨_, if_pos rfl⟩
  rcases h with ⟨cellSize, rfl⟩ | ⟨cellSize, first, h⟩
  · exact rooted ..
  · unfold Store.new at h
    split at h <;> cases h
    exact rooted ..

theorem assignId_past {wanted : ElementId} {ids : IdSource} (counter : s.ids.IsCounter)
    (h : s.assignId wanted = (.ok id, ids)) : ids.Past id := by
  unfold assignId at h
  split at h
  · next chosen =>
    split at h
    · cases h
    · cases h
      obtain ⟨n, hn⟩ := counter
      rw [hn]
      exact reserve_past n chosen
  · exact (freshId_fresh counter h).1

theorem insert_past {e : Element} (counter : s.ids.IsCounter) (h : s.insert e = (.ok id, t)) :
    t.ids.Past id := by
  unfold insert at h
  split at h
  · cases h
  split at h
  · cases h
  · next ids given =>
    cases h
    exact assignId_past counter given

theorem insert_chosen {e : Element} (chosen : e.id.isValid) (h : s.insert e = (.ok id, t)) :
    id = e.id := by
  unfold insert at h
  split at h
  · cases h
  split at h
  · cases h
  · next given =>
    cases h
    rw [assignId, if_pos chosen] at given
    split at given <;> cases given
    rfl

theorem insert_gains {e : Element} {a : ElementId} (new : ¬ s.contains a)
    (live : (s.insert e).2.contains a) : (s.insert e).1 = .ok a := by
  obtain ⟨x, hx⟩ := contains_iff.mp live
  cases h : s.insert e with
  | mk answer t =>
    rw [h] at hx
    cases answer with
    | error err =>
      rw [insert_refused_find? h] at hx
      exact absurd (contains_iff.mpr ⟨x, hx⟩) new
    | ok id =>
      have seen := (insert_view (f := fun _ => ()) (fun _ _ => rfl) h).2 a
      split at seen
      · next here => rw [here]
      · cases before : s.find? a with
        | none => simp [hx, before] at seen
        | some y => exact absurd (contains_iff.mpr ⟨y, before⟩) new

theorem Counted.insert_answer (ok : s.Counted) {e : Element} (any : ¬ e.id.isValid)
    (type : e.type ≠ .root) {n : UInt32} (hn : s.ids = .counter n) : (s.insert e).1 =
      if n < 0xffffffff then .ok ⟨n⟩ else .error .idSpaceExhausted := by
  have free : ¬ s.contains ⟨n⟩ := by
    intro live
    obtain ⟨m, hm, below⟩ := ok.past _ live
    cases hn.symm.trans hm
    exact UInt32.lt_irrefl n below
  have tried : s.tries = s.size + 1 := by rw [tries, hn]
  unfold insert
  rw [if_neg type, assignId, if_neg any, tried, hn, freshId]
  rcases next_counter n with ⟨m, given, up⟩ | ⟨rfl, refused⟩
  · have low : n < 0xffffffff := by
      have size := m.toNat_lt
      rw [UInt32.lt_iff_toNat_lt]
      have last : (0xffffffff : UInt32).toNat = 4294967295 := rfl
      omega
    rw [given, if_pos low]
    simp [free]
  · rw [refused]
    rfl

end Store

open Store

namespace World
variable {w : World} {ops : List Op} {a : ElementId}

/-- The element that a request is to bring in. -/
def Op.newcomer? : Op → Option Element
  | .store (.insert e) => some e
  | .createShape geometry position => some { kind := .shape geometry, position }
  | _ => none

theorem perform_gains (w : World) (op : Op) (new : ¬ w.store.contains a)
    (live : (w.perform op).store.contains a) : ∃ e, op.newcomer? = some e ∧
      (w.store.insert e).1 = .ok a ∧ (w.perform op).store.ids = (w.store.insert e).2.ids := by
  by_cases stores : op.Stores
  · cases op with
    | store sop =>
      rcases inserts_or_writes w.store sop with ⟨e, rfl⟩ | written
      · exact ⟨e, rfl, insert_gains new live, rfl⟩
      · refine absurd ?_ new
        rw [contains_iff_type?, ← written.type? a, ← contains_iff_type?]
        exact live
    | createShape geometry position =>
      have made := createShape_alike w geometry position
      exact ⟨_, rfl, insert_gains new ((made.contains a).mp live), made.ids⟩
    | _ => exact absurd stores id
  · rcases perform_removes_or_reshapes w stores with gone | edited
    · exact absurd (gone.contains live) new
    · exact absurd ((edited.quiet.contains a).mp live) new

theorem perform_counted (ok : w.store.Counted) (op : Op) : (w.perform op).store.Counted := by
  have onward := perform_onward w op
  refine ⟨onward.counter ok.counter, fun a live => ?_⟩
  by_cases before : w.store.contains a
  · exact onward.past a (ok.past a before)
  · obtain ⟨e, _, granted, ids⟩ := perform_gains w op before live
    rw [ids]
    exact insert_past ok.counter (Prod.ext granted rfl)

theorem run_counted (ok : w.store.Counted) (ops : List Op) : (w.run ops).store.Counted := by
  induction ops generalizing w with
  | nil => exact ok
  | cons op ops ih => exact ih (perform_counted ok op)

theorem run_onward (w : World) (ops : List Op) : Onward w.store.ids (w.run ops).store.ids := by
  induction ops generalizing w with
  | nil => exact .refl _
  | cons op ops ih => exact (perform_onward w op).trans (ih _)

/-- There was such an element at some time during the run. -/
def Known (w : World) (ops : List Op) (a : ElementId) : Prop :=
  ∃ earlier later, ops = earlier ++ later ∧ (w.run earlier).store.contains a

theorem Known.past (h : w.Known ops a) (ok : w.store.Counted) : (w.run ops).store.ids.Past a := by
  obtain ⟨earlier, later, rfl, live⟩ := h
  rw [← run_run]
  exact (run_onward _ later).past a ((run_counted ok earlier).past a live)

/-- An identifier that is valid, and greater than that of the root and all that were there. -/
structure Unused (w : World) (ops : List Op) (id : ElementId) : Prop where
  valid : id.isValid
  root : w.store.root.number < id.number
  known : ∀ a, w.Known ops a → a.number < id.number

theorem unused_of_granted (ok : w.store.Counted) (rooted : w.store.contains w.store.root)
    {e : Element} {id : ElementId} (any : ¬ e.id.isValid)
    (h : ((w.run ops).insert e).1 = .ok id) : w.Unused ops id := by
  obtain ⟨n, hn⟩ := (run_counted ok ops).counter
  have granted : (w.run ops).store.insert e = (.ok id, ((w.run ops).store.insert e).2) :=
    Prod.ext h rfl
  obtain ⟨⟨m, _, passed⟩, fresh⟩ := insert_fresh any (run_counted ok ops).counter granted
  have known (a : ElementId) (there : w.Known ops a) : a.number < id.number := by
    obtain ⟨k, hk, below⟩ := there.past ok
    refine UInt32.lt_of_lt_of_le below (UInt32.not_lt.mp fun low => fresh ⟨k, hk, low⟩)
  have size := m.toNat_lt
  have below : id.number < 0xffffffff := by
    rw [UInt32.lt_iff_toNat_lt] at passed ⊢
    have last : (0xffffffff : UInt32).toNat = 4294967295 := rfl
    omega
  exact ⟨isValid_iff.mpr below, known _ ⟨[], ops, rfl, rooted⟩, known⟩

theorem createShape_granted {geometry : Shape} {position : Vec3} {id : ElementId}
    (h : (w.createShape geometry position).1 = .ok id) :
    (w.insert { kind := .shape geometry, position }).1 = .ok id := by
  unfold createShape at h
  split at h
  · cases h
  · next given =>
    rw [given]
    split at h <;> cases h
    rfl

/-- What identifiers elements have that come to a world after a run. -/
structure Arrivals (w : World) (ops : List Op) : Prop where
  given : ∀ e id, ¬ e.id.isValid → ((w.run ops).insert e).1 = .ok id → w.Unused ops id
  created : ∀ geometry position id,
    ((w.run ops).createShape geometry position).1 = .ok id → w.Unused ops id
  -- an element is refused an identifier only at the end of the counter
  granted : ∃ n, (w.run ops).store.ids = .counter n ∧
    ∀ e, ¬ e.id.isValid → e.type ≠ .root → ((w.run ops).insert e).1 =
      if n < 0xffffffff then .ok ⟨n⟩ else .error .idSpaceExhausted
  -- what names an element that is gone names another only where somebody chose that
  chosen : ∀ op a, w.Known ops a → ¬ (w.run ops).store.contains a →
    ((w.run ops).perform op).store.contains a → ∃ e, op = .store (.insert e) ∧ e.id = a

/-- Whatever was asked of a world whose identifiers come from a counter, also with identifiers that were
chosen and with elements that were refused or removed, newcomers get identifiers that were never used. -/
theorem run_arrivals {s : Store} (founded : s.Founded) (ops : List Op) :
    Arrivals { store := s } ops ∧ ∀ n,
      ((∃ m, (counter n).next = (.ok ⟨n⟩, .counter m) ∧ m.toNat = n.toNat + 1) ∨
        (n = 0xffffffff ∧ (counter n).next = (.error .idSpaceExhausted, .counter n))) ∧
      ∀ id, ∃ m, (counter n).reserve id = .counter m ∧
        m.toNat = if id.isValid then max n.toNat (id.number.toNat + 1) else n.toNat := by
  have ok : ({ store := s } : World).store.Counted := founded.counted
  refine ⟨⟨fun e id any h => ?_, fun geometry position id h => ?_, ?_, fun op a known gone back => ?_⟩,
    fun n => ⟨next_counter n, reserve_counter n⟩⟩
  · exact unused_of_granted ok founded.rooted any h
  · exact unused_of_granted ok founded.rooted (show ¬ ElementId.invalid.isValid by decide)
      (createShape_granted h)
  · obtain ⟨n, hn⟩ := (run_counted ok ops).counter
    exact ⟨n, hn, fun e any type => (run_counted ok ops).insert_answer any type hn⟩
  · obtain ⟨e, brought, granted, _⟩ := perform_gains _ op gone back
    by_cases chosen : e.id.isValid
    · have same : a = e.id := insert_chosen chosen (Prod.ext granted rfl)
      cases op with
      | store sop =>
        cases sop with
        | insert x =>
          cases brought
          exact ⟨e, rfl, same.symm⟩
        | _ => cases brought
      | createShape geometry position =>
        cases brought
        exact absurd chosen (show ¬ ElementId.invalid.isValid by decide)
      | _ => cases brought
    · exact absurd ((unused_of_granted ok founded.rooted chosen granted).known a known)
        (UInt32.lt_irrefl _)

def lastWorld : World :=
  { store := withRoot Grid.defaultCellSize (.counter 0xfffffffb) ⟨0xfffffffa⟩ }

def lastNumbers : List Op :=
  [.store (.insert { kind := .object 1 }), .store (.insert { kind := .object 1, id := ⟨0xfffffffd⟩ }),
    .store (.insert { kind := .object 2, id := ⟨0xfffffffd⟩ }), .remove ⟨0xfffffffb⟩,
    .remove ⟨0xfffffffd⟩]

theorem lastWorld_arrivals : lastWorld.store.Founded ∧ lastWorld.Arrivals lastNumbers ∧
    lastWorld.Known lastNumbers ⟨0xfffffffd⟩ ∧
    ¬ (lastWorld.run lastNumbers).store.contains ⟨0xfffffffd⟩ ∧
    ((lastWorld.run lastNumbers).insert { kind := .object 3 }).1 = .ok ⟨0xfffffffe⟩ ∧
    lastWorld.Unused lastNumbers ⟨0xfffffffe⟩ := by
  have founded : lastWorld.store.Founded := .inr ⟨Grid.defaultCellSize, 0xfffffffa, rfl⟩
  have arrivals := (run_arrivals founded lastNumbers).1
  have last : ((lastWorld.run lastNumbers).insert { kind := .object 3 }).1 = .ok ⟨0xfffffffe⟩ := by
    decide +kernel
  exact ⟨founded, arrivals, ⟨lastNumbers.take 2, lastNumbers.drop 2, rfl, by decide +kernel⟩,
    by decide +kernel, last,
    arrivals.given _ _ (show ¬ ElementId.invalid.isValid by decide) last⟩

end World
end SharedWorld
