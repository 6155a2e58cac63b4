import SharedWorld.Proofs.Grid.Box

/-! What has been put into the spatial index. Whatever was put there, moved and taken out again, an
element is indexed where it was put last, and buckets and elements agree. -/
namespace SharedWorld.Grid
variable {g : Grid} {id : ElementId} {entry : GridEntry} {cell : Cell}

inductive Op
  | upsert (id : ElementId) (position : Vec3) (type : ElementType)
  | remove (id : ElementId)

def perform (g : Grid) : Op → Grid
  | .upsert id position type => g.upsert id position type
  | .remove id => g.remove id

def run (g : Grid) (ops : List Op) : Grid := ops.foldl perform g

def Op.next (op : Op) (id : ElementId) (old : Option GridEntry) : Option GridEntry :=
  match op with
  | .upsert other position type => if id = other then some ⟨position, type⟩ else old
  | .remove other => if id = other then none else old

/-- Where an element was put last, and as what, unless it was taken out since. -/
def latest (ops : List Op) (id : ElementId) : Option GridEntry :=
  ops.foldl (fun old op => op.next id old) none

/-- Buckets and elements agree, and the columns have a size. -/
structure Filed (g : Grid) : Prop where
  sized : g.Sized
  files : g.buckets.Files g.column

theorem filed_new (cellSize : Single) : (new cellSize).Filed := ⟨sized_new cellSize, files_new cellSize⟩

theorem perform_cellSize (g : Grid) (op : Op) : (g.perform op).cellSize = g.cellSize := by
  cases op with
  | upsert => rfl
  | remove => exact remove_cellSize

theorem Filed.perform (h : g.Filed) (op : Op) : (g.perform op).Filed := by
  refine ⟨⟨?_, ?_⟩, ?_⟩
  · rw [perform_cellSize]
    exact h.sized.finite
  · rw [perform_cellSize]
    exact h.sized.positive
  · cases op with
    | upsert id position type => exact files_upsert h.files position type
    | remove id => exact files_remove h.files

theorem Filed.run (h : g.Filed) (ops : List Op) : (g.run ops).Filed := by
  induction ops generalizing g with
  | nil => exact h
  | cons op ops ih => exact ih (h.perform op)

theorem run_filed (cellSize : Single) (ops : List Op) : ((new cellSize).run ops).Filed :=
  (filed_new cellSize).run ops

theorem find?_perform (g : Grid) (op : Op) (id : ElementId) :
    (g.perform op).entries.find? id = op.next id (g.entries.find? id) := by
  cases op with
  | upsert other position type => exact find?_upsert position type id
  | remove other => exact find?_remove id

theorem find?_run (cellSize : Single) (ops : List Op) (id : ElementId) :
    ((new cellSize).run ops).entries.find? id = latest ops id := by
  have onward (g : Grid) (ops : List Op) : (g.run ops).entries.find? id =
      ops.foldl (fun old op => op.next id old) (g.entries.find? id) := by
    induction ops generalizing g with
    | nil => rfl
    | cons op ops ih =>
      rw [List.foldl_cons, ← find?_perform]
      exact ih (g.perform op)
  exact onward (new cellSize) ops

theorem Filed.mem_inCell (h : g.Filed) : (id, entry) ∈ g.inCell cell ↔
    g.entries.find? id = some entry ∧ g.cellAt entry.position = cell := by
  constructor
  · intro listed
    obtain ⟨other, held, found⟩ := List.mem_filterMap.mp listed
    obtain ⟨_, indexed, rfl, rfl⟩ : ∃ e, g.entries.find? other = some e ∧ other = id ∧ e = entry := by
      simpa using found
    refine ⟨indexed, ?_⟩
    have column : g.column other = some cell := h.files.mem_find.mp held
    simpa [Grid.column, position?, indexed] using column
  · rintro ⟨indexed, rfl⟩
    exact SharedWorld.Grid.mem_inCell h.files indexed

theorem Filed.nodup_inCell (h : g.Filed) : (g.inCell cell).Nodup := by
  refine List.Nodup.filterMap (fun a b x ha hb => ?_) (List.nodup_iff_count_le_one.mpr fun id => ?_)
  · obtain ⟨_, _, rfl⟩ := Option.map_eq_some_iff.mp ha
    obtain ⟨_, _, same⟩ := Option.map_eq_some_iff.mp hb
    exact (congrArg Prod.fst same).symm
  · rw [h.files.count]
    split <;> decide

end SharedWorld.Grid
