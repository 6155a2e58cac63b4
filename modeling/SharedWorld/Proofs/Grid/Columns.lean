import Mathlib.Data.Set.Card
import SharedWorld.Proofs.Grid.Run

/-! What the buckets hold as a whole. Each element is in the one bucket of the column where it was put
last, once there, and no bucket is left with nothing in it. -/
namespace SharedWorld.Grid
variable {g : Grid} {id : ElementId} {entry : GridEntry} {ops : List Op}

/-- Buckets and elements are one index: a column has at most one bucket, which is not empty and holds
only what is indexed in that column, and what is indexed is in one bucket and once there. -/
structure Tidy (g : Grid) : Prop where
  apart : (g.buckets.map (·.1)).Nodup
  filled : ∀ bucket ∈ g.buckets, bucket.2 ≠ []
  indexed : ∀ bucket ∈ g.buckets, ∀ id ∈ bucket.2,
    ∃ e, g.entries.find? id = some e ∧ g.cellAt e.position = bucket.1
  once : ∀ id e, g.entries.find? id = some e → ∃ ids, ids.count id = 1 ∧
    ∀ bucket, bucket ∈ g.buckets ∧ id ∈ bucket.2 ↔ bucket = (g.cellAt e.position, ids)

theorem Filed.tidy (h : g.Filed) : g.Tidy where
  apart := h.files.apart
  filled := h.files.kept
  indexed _ held _ listed := column_eq_some.mp ((h.files.mem_bucket held).mp listed)
  once id e found := by
    have here : g.column id = some (g.cellAt e.position) := column_eq_some.mpr ⟨e, found, rfl⟩
    exact ⟨_, (h.files.count _ id).trans (if_pos here), h.files.sole_bucket here⟩

def Op.element : Op → ElementId
  | .upsert id _ _ => id
  | .remove id => id

/-- Of the operations on an element the last one put it here, as this. -/
def Stands (ops : List Op) (id : ElementId) (entry : GridEntry) : Prop :=
  (ops.filter (·.element = id)).getLast? = some (.upsert id entry.position entry.type)

theorem stands_snoc {op : Op} : Stands (ops ++ [op]) id entry ↔
    if op.element = id then op = .upsert id entry.position entry.type else Stands ops id entry := by
  unfold Stands
  by_cases about : op.element = id <;> simp [List.filter_append, about]

theorem latest_snoc (ops : List Op) (op : Op) (id : ElementId) :
    latest (ops ++ [op]) id = op.next id (latest ops id) := by
  simp [latest]

theorem latest_eq_some_iff : latest ops id = some entry ↔ Stands ops id entry := by
  -- the operation that counts is the last one, so the run is taken apart at its end
  induction ops using List.reverseRecOn with
  | nil => simp [latest, Stands]
  | append_singleton ops op ih =>
    rw [latest_snoc, stands_snoc, ← ih]
    cases op with
    | upsert other position type =>
      by_cases same : id = other
      · subst same
        cases entry
        simp [Op.next, Op.element]
      · simp [Op.next, Op.element, same, Ne.symm same]
    | remove other =>
      by_cases same : id = other
      · simp [Op.next, Op.element, same]
      · simp [Op.next, Op.element, same, Ne.symm same]

theorem encard_indexed (g : Grid) : {id | ∃ e, g.entries.find? id = some e}.encard = g.size := by
  have indexed : {id | ∃ e, g.entries.find? id = some e} = (g.entries.keys.toFinset : Set ElementId) := by
    ext id
    simp [Table.mem_keys, Table.mem_iff, Option.isSome_iff_exists]
  rw [indexed, Set.encard_coe_eq_coe_finsetCard, List.toFinset_card_of_nodup g.entries.keys_nodup,
    Table.keys_length]
  rfl

/-- Whatever was put into the index, moved and taken out, with columns of any size and wherever it was
put, be it nowhere or infinitely far, buckets and elements are one index, and those are indexed and
counted that were put there last and not taken out since, each as it was put there last. -/
theorem run_buckets (cellSize : Single) (ops : List Op) :
    let g := (new cellSize).run ops
    g.Tidy ∧ (∀ id e, g.entries.find? id = some e ↔ Stands ops id e) ∧
      {id | ∃ e, Stands ops id e}.encard = g.size := by
  intro g
  have stands (id e) : g.entries.find? id = some e ↔ Stands ops id e := by
    rw [find?_run, latest_eq_some_iff]
  refine ⟨(run_filed cellSize ops).tidy, stands, ?_⟩
  simp only [← stands]
  exact encard_indexed g

-- what is no number counts as column zero, and what is infinitely far as the last one. The second
-- element leaves a column, which is given up, and the third is taken out and comes back behind it.
example :
    let infinity : Single := ⟨0x7f800000⟩
    let nowhere : Single := ⟨0x7fc00000⟩
    let g := (new defaultCellSize).run
      [.upsert ⟨1⟩ ⟨nowhere, infinity, .zero⟩ .object, .upsert ⟨3⟩ ⟨.one, .one, .zero⟩ .vehicle,
        .upsert ⟨2⟩ ⟨-infinity, .one, .zero⟩ .player, .remove ⟨3⟩, .remove ⟨4⟩,
        .upsert ⟨2⟩ ⟨.one, nowhere, .zero⟩ .player, .upsert ⟨3⟩ ⟨.zero, .one, .zero⟩ .object]
    g.buckets = [(⟨0, 2147483647⟩, [⟨1⟩]), (⟨0, 0⟩, [⟨2⟩, ⟨3⟩])] ∧ g.size = 3 := by
  decide

end SharedWorld.Grid
