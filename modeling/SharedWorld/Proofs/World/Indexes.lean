import SharedWorld.Proofs.Grid.Buckets
import SharedWorld.Proofs.Single.Level
import SharedWorld.Proofs.World.Turns
import SharedWorld.Proofs.World.Writes

/-! Both indexes mirror the elements. A write to an element keeps its type, and the spatial index is
told where the element is, unless it has not moved or is the root; only coming and going change what
is indexed by type. -/
namespace SharedWorld

/-- What the spatial index is told of an element. -/
def Element.entry (e : Element) : GridEntry := ⟨e.position, e.type⟩

/-- The same type, and places that differ at most in the sign of a zero. -/
structure GridEntry.Level (a b : GridEntry) : Prop where
  type : a.type = b.type
  position : a.position.Level b.position

theorem GridEntry.Level.refl (a : GridEntry) : a.Level a := ⟨rfl, .refl _⟩

namespace Store
variable {s t : Store} {id : ElementId}

theorem mem_idsByType {type : ElementType} {a : ElementId} :
    a ∈ s.idsByType type ↔ a ∈ (s.types.find? type).getD .empty := by
  unfold idsByType
  cases s.types.find? type with
  | none => simpa using IdSet.not_mem_empty a
  | some ids => exact IdSet.mem_toList

theorem place_types (s : Store) (id : ElementId) (e : Element) : (s.place id e).types =
    s.types.insert e.type (((s.types.find? e.type).getD .empty).add id) := by
  rw [← released_type e id (some s.root)]
  rfl

theorem place_grid (s : Store) (id : ElementId) (e : Element) :
    (s.place id e).grid = s.grid.upsert id e.position e.type := by
  rw [← released_type e id (some s.root)]
  rfl

theorem type?_eq_entry (s : Store) (a : ElementId) :
    s.type? a = ((s.find? a).map Element.entry).map (·.type) := by
  unfold Store.type?
  rw [Option.map_map]
  rfl

/-- The elements of each type are listed under it; those other than the root are in the spatial
index, where they are. -/
structure Indexed (s : Store) : Prop where
  typed : ∀ type a, a ∈ s.idsByType type ↔ s.type? a = some type
  rooted : ∀ a, s.type? a = some .root ↔ a = s.root
  files : s.grid.buckets.Files s.grid.column
  apart : s.grid.entries.find? s.root = none
  listed : ∀ a, a ≠ s.root →
    Option.Rel GridEntry.Level (s.grid.entries.find? a) ((s.find? a).map Element.entry)

namespace Indexed

theorem exists_entry (ok : s.Indexed) {e : Element} (he : s.find? id = some e)
    (notRoot : id ≠ s.root) : ∃ entry, s.grid.entries.find? id = some entry ∧
      entry.Level e.entry := by
  have listed := ok.listed id notRoot
  rw [he] at listed
  generalize s.grid.entries.find? id = held at listed ⊢
  cases listed with
  | some level => exact ⟨_, rfl, level⟩

theorem exists_element (ok : s.Indexed) {entry : GridEntry}
    (h : s.grid.entries.find? id = some entry) :
    id ≠ s.root ∧ ∃ e, s.find? id = some e ∧ entry.Level e.entry := by
  have notRoot : id ≠ s.root := fun root => by simp [root, ok.apart] at h
  have listed := ok.listed id notRoot
  rw [h] at listed
  generalize known : (s.find? id).map Element.entry = held at listed
  cases listed with
  | some level =>
    obtain ⟨e, he, rfl⟩ := Option.map_eq_some_iff.mp known
    exact ⟨notRoot, e, he, level⟩

theorem of_still (ok : s.Indexed) (root : t.root = s.root) (types : t.types = s.types)
    (grid : t.grid = s.grid)
    (still : ∀ a, (t.find? a).map Element.entry = (s.find? a).map Element.entry) : t.Indexed := by
  have type? (a) : t.type? a = s.type? a := by rw [type?_eq_entry, type?_eq_entry, still]
  refine ⟨fun type a => ?_, fun a => ?_, ?_, ?_, fun a ha => ?_⟩
  · rw [type?, ← ok.typed, mem_idsByType, mem_idsByType, types]
  · rw [type?, root]
    exact ok.rooted a
  · rw [grid]
    exact ok.files
  · rw [grid, root]
    exact ok.apart
  · rw [grid, still]
    exact ok.listed a (root ▸ ha)

theorem of_changed (ok : s.Indexed) (id : ElementId) (root : t.root = s.root)
    (find : ∀ a, a ≠ id → (t.find? a).map Element.entry = (s.find? a).map Element.entry)
    (grid : ∀ a, a ≠ id → t.grid.entries.find? a = s.grid.entries.find? a)
    (files : t.grid.buckets.Files t.grid.column)
    (typed : ∀ type a, a ∈ t.idsByType type ↔
      (a = id ∧ t.type? id = some type) ∨ (a ≠ id ∧ a ∈ s.idsByType type))
    (rooted : t.type? id = some .root ↔ id = s.root)
    (apart : id = s.root → t.grid.entries.find? id = none)
    (listed : id ≠ s.root →
      Option.Rel GridEntry.Level (t.grid.entries.find? id) ((t.find? id).map Element.entry)) :
    t.Indexed := by
  have type? {a} (ha : a ≠ id) : t.type? a = s.type? a := by
    rw [type?_eq_entry, type?_eq_entry, find a ha]
  refine ⟨fun type a => ?_, fun a => ?_, files, ?_, fun a ha => ?_⟩
  · rw [typed]
    by_cases h : a = id
    · simp [h]
    · simp [h, type? h, ok.typed]
  · by_cases h : a = id
    · rw [h, root, rooted]
    · rw [type? h, root, ok.rooted]
  · by_cases h : t.root = id
    · rw [h]
      exact apart (h.symm.trans root)
    · rw [grid _ h, root]
      exact ok.apart
  · rw [root] at ha
    by_cases h : a = id
    · subst h
      exact listed ha
    · rw [grid a h, find a h]
      exact ok.listed a ha

theorem of_alike (ok : s.Indexed) (h : Alike s t) : t.Indexed :=
  ok.of_still h.root h.types h.grid fun a => by rw [h.find?]

theorem of_edit (ok : s.Indexed) {f : Element → Element}
    (stays : ∀ e, s.find? id = some e → (f e).type = e.type ∧ (f e).position = e.position) :
    (s.modify id f).Indexed := by
  refine ok.of_still rfl rfl rfl fun a => ?_
  rw [find?_modify]
  split
  · next ha =>
    subst ha
    cases he : s.find? a with
    | none => rfl
    | some e =>
      obtain ⟨type, position⟩ := stays e he
      simp [Element.entry, type, position]
  · rfl

theorem of_modified (ok : s.Indexed) {f : Element → Element} {e : Element}
    (he : s.find? id = some e) (type : (f e).type = e.type) {grid : Grid}
    (files : grid.buckets.Files grid.column)
    (others : ∀ a, a ≠ id ∨ a = s.root → grid.entries.find? a = s.grid.entries.find? a)
    (here : id ≠ s.root → ∃ entry, grid.entries.find? id = some entry ∧ entry.Level (f e).entry) :
    Indexed { s.modify id f with grid } := by
  have found (a) : Store.find? { s.modify id f with grid } a =
      if a = id then (s.find? a).map f else s.find? a := find?_modify s id a f
  have kept : Store.type? { s.modify id f with grid } id = s.type? id := by
    simp [Store.type?, found, he, type]
  refine ok.of_changed id rfl (fun a ha => by rw [found, if_neg ha])
    (fun a ha => others a (.inl ha)) files (fun t a => ?_) ?_ (fun root => ?_) fun notRoot => ?_
  · rw [kept, ← ok.typed]
    show a ∈ s.idsByType t ↔ _
    by_cases ha : a = id <;> simp [ha]
  · rw [kept]
    exact ok.rooted id
  · exact (others id (.inr root)).trans (root ▸ ok.apart)
  · obtain ⟨entry, held, level⟩ := here notRoot
    rw [found, if_pos rfl, he]
    exact held ▸ .some level

/-- The index is left alone where the old and the new place compare as equal: it may keep the other
zero. -/
theorem of_update (ok : s.Indexed) {f : Element → Element} (type : ∀ e, (f e).type = e.type)
    (h : s.update id f = .ok t) : t.Indexed := by
  unfold update at h
  split at h
  · cases h
  next e he =>
  dsimp only at h
  have live : s.type? id = some (f e).type := by simp [Store.type?, he, type]
  split at h <;> cases h
  · next unmoved =>
    refine ok.of_modified he (type e) ok.files (fun _ _ => rfl) fun notRoot => ?_
    obtain ⟨entry, held, level⟩ := ok.exists_entry he notRoot
    have same : (f e).position.same e.position := by
      rcases unmoved with same | root
      · exact same
      · exact absurd ((ok.rooted id).mp (live.trans (congrArg some root))) notRoot
    have near : e.position.Level (f e).position := (Vec3.level_of_same same).symm
    exact ⟨entry, held, level.type.trans (type e).symm, level.position.trans near⟩
  · next moved =>
    have notRoot : s.root ≠ id := fun root =>
      moved (.inr (Option.some.inj (live.symm.trans ((ok.rooted id).mpr root.symm))))
    refine ok.of_modified he (type e) (Grid.files_upsert ok.files _ _) (fun a ha => ?_) fun _ => ?_
    · have other : a ≠ id := by
        rcases ha with ha | rfl
        · exact ha
        · exact notRoot
      exact (Grid.find?_upsert ..).trans (if_neg other)
    · exact ⟨_, (Grid.find?_upsert ..).trans (if_pos rfl), .refl _⟩

theorem of_write (ok : s.Indexed) (h : Write s t) : t.Indexed := by
  cases h with
  | edit stays => exact ok.of_edit stays
  | move type h => exact ok.of_update type h

theorem of_writes (ok : s.Indexed) (h : Writes s t) : t.Indexed := by
  induction h with
  | refl => exact ok
  | tail _ write ih => exact ih.of_write write

theorem of_placed (ok : s.Indexed) {e : Element} (free : ¬ s.contains id) (type : e.type ≠ .root) :
    (s.place id e).Indexed := by
  have live : s.contains s.root := contains_iff_type?.mpr ⟨_, (ok.rooted s.root).mpr rfl⟩
  have notRoot : id ≠ s.root := fun h => free (h ▸ live)
  have unknown : s.type? id = none := by
    simpa [← Option.not_isSome_iff_eq_none, Option.isSome_iff_exists, ← contains_iff_type?] using free
  have new : (s.place id e).type? id = some e.type := by
    rw [(place_placed s live free e).type?, if_pos rfl]
  have grid := place_grid s id e
  refine ok.of_changed id rfl (fun a ha => ?_) (fun a ha => ?_) ?_ (fun t a => ?_) ?_
    (fun root => absurd root notRoot) fun _ => ?_
  · rw [find?_place, if_neg ha, find?_modify]
    split
    · rw [Option.map_map]
      rfl
    · rfl
  · rw [grid]
    exact (Grid.find?_upsert ..).trans (if_neg ha)
  · rw [grid]
    exact Grid.files_upsert ok.files _ _
  · have other : id ∉ s.idsByType t := by simp [ok.typed, unknown]
    rw [new, mem_idsByType, place_types, Table.find?_insert]
    split
    · next ht =>
      rw [Option.getD_some, IdSet.mem_add, ← ht, ← mem_idsByType]
      by_cases ha : a = id <;> simp [ha]
    · next ht =>
      rw [← mem_idsByType]
      by_cases ha : a = id <;> simp [ha, other, Ne.symm ht]
  · simp [new, type, notRoot]
  · rw [grid, Grid.find?_upsert, find?_place, if_pos rfl, if_pos rfl]
    exact .some ⟨(released_type ..).symm, .refl _⟩

theorem of_erased (ok : s.Indexed) {type : ElementType} (live : s.type? id = some type)
    (notRoot : id ≠ s.root) : Indexed { s with
      residents := s.residents.erase id
      types := s.types.modify type (·.erase id)
      grid := s.grid.remove id } := by
  set t : Store := { s with
      residents := s.residents.erase id
      types := s.types.modify type (·.erase id)
      grid := s.grid.remove id }
  have found (a) : t.find? a = if a = id then none else s.find? a := by
    unfold Store.find?
    rw [Table.find?_erase]
    split <;> rfl
  have gone : t.type? id = none := by simp [Store.type?, found]
  refine ok.of_changed id rfl (fun a ha => by rw [found, if_neg ha])
    (fun a ha => (Grid.find?_remove a).trans (if_neg ha)) (Grid.files_remove ok.files)
    (fun u a => ?_) ?_ (fun root => absurd root notRoot) fun _ => ?_
  · have types : t.types.find? u =
        if u = type then (s.types.find? u).map (·.erase id) else s.types.find? u :=
      Table.find?_modify_eq ..
    have left : a ∈ t.idsByType u ↔ a ≠ id ∧ a ∈ s.idsByType u := by
      rw [mem_idsByType, mem_idsByType, types]
      split
      · cases s.types.find? u with
        | none => simp [IdSet.not_mem_empty]
        | some ids => exact Table.mem_erase
      · next hu =>
        rw [← mem_idsByType, ok.typed]
        refine (and_iff_right_of_imp fun h ha => hu ?_).symm
        rw [ha, live] at h
        exact (Option.some.inj h).symm
    rw [gone, left]
    simp
  · simp [gone, notRoot]
  · rw [found, if_pos rfl]
    exact (Grid.find?_remove id).trans (if_pos rfl) ▸ .none

theorem of_evict (ok : s.Indexed) {gone : Element} (notRoot : id ≠ s.root)
    (h : s.evict id = some (gone, t)) : t.Indexed := by
  simp only [evict, Option.bind_eq_bind, Option.bind_eq_some_iff] at h
  obtain ⟨e, he, left, _, h⟩ := h
  cases h
  have writes := unlink_writes s id e
  have live : (s.unlink id e).type? id = some e.type := by
    rw [writes.type?, Store.type?, he]
    rfl
  exact (ok.of_writes writes).of_erased live (by rwa [unlink_root])

end Indexed

theorem Turn.indexed (h : Turn s t) (ok : s.Indexed) : t.Indexed := by
  cases h with
  | alike h => exact ok.of_alike h
  | perform op =>
    have renamed (ids : IdSource) : Indexed { s with ids } :=
      ok.of_still rfl rfl rfl fun _ => rfl
    rcases perform_writes s op with ⟨ids, h⟩ | ⟨ids, id, e, free, type, h⟩ | h
    · exact h ▸ renamed ids
    · exact h ▸ (renamed ids).of_placed free type
    · exact ok.of_writes h
  | reshape h =>
    obtain ⟨id, e, old, new, he, hk, rfl⟩ := h
    refine ok.of_edit fun e' he' => ?_
    cases he.symm.trans he'
    simp [Element.type, hk, ElementKind.type]
  | evict notRoot h => exact ok.of_evict notRoot h

theorem type?_withRoot (cellSize : Single) (ids : IdSource) (root a : ElementId) :
    (withRoot cellSize ids root).type? a = if a = root then some .root else none := by
  rw [Store.type?, find?_withRoot]
  split <;> rfl

theorem indexed_withRoot (cellSize : Single) (ids : IdSource) (root : ElementId) :
    (withRoot cellSize ids root).Indexed where
  typed type a := by
    have types : (withRoot cellSize ids root).types.find? type =
        if type = .root then some (IdSet.add .empty root) else none := Table.find?_insert ..
    rw [mem_idsByType, types, type?_withRoot]
    by_cases h : type = .root
    · simp [h, IdSet.mem_add, IdSet.not_mem_empty]
    · simp [h, Ne.symm h, IdSet.not_mem_empty]
  rooted a := by
    rw [type?_withRoot]
    show _ ↔ a = root
    split <;> simp [*]
  files := Grid.files_new cellSize
  apart := rfl
  listed a ha := by
    rw [find?_withRoot]
    exact (if_neg ha).symm ▸ .none

theorem idsByType_ascending (s : Store) (type : ElementType) :
    (s.idsByType type).Pairwise (rank · < rank ·) := by
  unfold idsByType
  cases s.types.find? type with
  | none => exact .nil
  | some ids => exact List.pairwise_map.mpr ids.ascending

theorem idsByType_of_mem {x : ElementType × IdSet} (h : x ∈ s.types.entries) :
    s.idsByType x.1 = x.2.toList := by
  rw [idsByType, Table.find?_of_mem h]
  rfl

theorem foldr_countByType (entries : List (ElementType × IdSet)) :
    (((entries.map fun (type, ids) => (type, ids.size)).filter fun (_, n) => 0 < n).map
      (·.2)).foldr (· + ·) 0 = (entries.flatMap (·.2.toList)).length := by
  induction entries with
  | nil => rfl
  | cons x entries ih =>
    obtain ⟨type, ids⟩ := x
    have size : ids.toList.length = ids.size := Table.keys_length _
    rw [List.flatMap_cons, List.length_append, ← ih, size]
    by_cases some : 0 < ids.size
    · simp [some]
    · simp [Nat.eq_zero_of_not_pos some]

theorem Indexed.flatMap_perm (ok : s.Indexed) :
    (s.types.entries.flatMap (·.2.toList)).Perm s.residents.keys := by
  have typed {x} (hx : x ∈ s.types.entries) {a} : a ∈ x.2.toList ↔ s.type? a = some x.1 := by
    rw [← idsByType_of_mem hx, ok.typed]
  have apart : s.types.entries.Pairwise (Function.onFun List.Disjoint (·.2.toList)) := by
    refine s.types.ascending.imp_of_mem fun {x y} hx hy lower a hax hay => ?_
    have same : x.1 = y.1 :=
      Option.some.inj (((typed hx).mp hax).symm.trans ((typed hy).mp hay))
    exact Nat.ne_of_lt lower (congrArg rank same)
  have once : (s.types.entries.flatMap (·.2.toList)).Nodup :=
    List.nodup_flatMap.mpr ⟨fun x _ => Table.keys_nodup x.2, apart⟩
  refine (List.perm_ext_iff_of_nodup once (Table.keys_nodup s.residents)).mpr fun a => ?_
  rw [List.mem_flatMap, Table.mem_keys]
  show _ ↔ s.contains a
  rw [contains_iff_type?]
  constructor
  · rintro ⟨x, hx, hax⟩
    exact ⟨x.1, (typed hx).mp hax⟩
  · rintro ⟨type, ha⟩
    have listed := (ok.typed type a).mpr ha
    unfold idsByType at listed
    cases h : s.types.find? type with
    | none => simp [h] at listed
    | some ids =>
      rw [h] at listed
      exact ⟨_, Table.mem_of_find? h, listed⟩

theorem Indexed.counted (ok : s.Indexed) :
    (s.countByType.map (·.2)).foldr (· + ·) 0 = s.size := by
  rw [countByType, foldr_countByType, ok.flatMap_perm.length_eq]
  exact Table.keys_length _

end Store
end SharedWorld
