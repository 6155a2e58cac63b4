import SharedWorld.Proofs.Realm.Run
import SharedWorld.Proofs.World.Indexes

/-! Whatever happens to a realm, the elements of a type can be looked up by it, and elements other
than the root by place. -/
namespace SharedWorld
namespace Store
variable {s : Store}

/-- Each type has its elements listed in ascending order, and each element but the root is in the
spatial index, in one column and once there, with its type and where it is. -/
structure Mirrored (s : Store) : Prop where
  ascending : ∀ type, (s.idsByType type).Pairwise (rank · < rank ·)
  typed : ∀ type id, id ∈ s.idsByType type ↔ s.type? id = some type
  counted : (s.countByType.map (·.2)).foldr (· + ·) 0 = s.size
  rooted : ∀ id, s.type? id = some .root ↔ id = s.root
  held : ∀ id, s.grid.contains id ↔ s.contains id ∧ id ≠ s.root
  files : s.grid.buckets.Files s.grid.column
  level : ∀ {id entry}, s.grid.entries.find? id = some entry →
    ∃ e, s.find? id = some e ∧ entry.type = e.type ∧ entry.position.Level e.position

theorem Indexed.mirrored (ok : s.Indexed) : s.Mirrored where
  ascending := s.idsByType_ascending
  typed := ok.typed
  counted := ok.counted
  rooted := ok.rooted
  held id := by
    unfold Grid.contains Table.contains
    rw [contains_iff, Option.isSome_iff_exists]
    constructor
    · rintro ⟨entry, h⟩
      obtain ⟨notRoot, e, he, _⟩ := ok.exists_element h
      exact ⟨⟨e, he⟩, notRoot⟩
    · rintro ⟨⟨e, he⟩, notRoot⟩
      exact (ok.exists_entry he notRoot).imp fun _ h => h.1
  files := ok.files
  level h := by
    obtain ⟨_, e, he, level⟩ := ok.exists_element h
    exact ⟨e, he, level.type, level.position⟩

end Store

namespace Realm

theorem run_mirrored (cellSize : Single) (ids : IdSource) (root : ElementId) (ops : List Op) :
    ((fresh cellSize ids root).run ops).store.Mirrored :=
  (run_keeps (fun _ turn ok => turn.indexed ok) (Store.indexed_withRoot cellSize ids root) ops).mirrored

end Realm
end SharedWorld
