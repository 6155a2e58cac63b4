import SharedWorld.Proofs.Grid.Run
import SharedWorld.Proofs.Shape.Region

/-! What queries by region answer. A query looks at all elements, or at the columns between those of
two corners; a box finds what it contains either way. A sphere finds what is within its radius and in
one of the columns that are looked at: rounding may leave out a column that it reaches into. -/
namespace SharedWorld.Grid
variable {g : Grid} {id : ElementId} {entry : GridEntry}

def Scans (g : Grid) (b : Bounds) : Prop :=
  g.size < (g.axisCell b.max.x - g.axisCell b.min.x + 1).toNat *
    (g.axisCell b.max.y - g.axisCell b.min.y + 1).toNat

instance (g : Grid) (b : Bounds) : Decidable (g.Scans b) := inferInstanceAs (Decidable (_ < _))

/-- The column of a point is between those of the corners of a box. -/
structure Covers (g : Grid) (b : Bounds) (p : Vec3) : Prop where
  left : g.axisCell b.min.x ≤ g.axisCell p.x
  right : g.axisCell p.x ≤ g.axisCell b.max.x
  bottom : g.axisCell b.min.y ≤ g.axisCell p.y
  top : g.axisCell p.y ≤ g.axisCell b.max.y

instance (g : Grid) (b : Bounds) (p : Vec3) : Decidable (g.Covers b p) :=
  decidable_of_iff (_ ∧ _ ∧ _ ∧ _) ⟨fun ⟨l, r, b, t⟩ => ⟨l, r, b, t⟩, fun ⟨l, r, b, t⟩ => ⟨l, r, b, t⟩⟩

theorem Filed.mem_candidates_iff (h : g.Filed) (b : Bounds) :
    (id, entry) ∈ g.candidates b.min.x b.min.y b.max.x b.max.y ↔
      g.entries.find? id = some entry ∧ (g.Scans b ∨ g.Covers b entry.position) := by
  unfold candidates cellOf
  dsimp only
  split
  · next many =>
    rw [and_iff_left (Or.inl (show g.Scans b from many))]
    exact ⟨Table.find?_of_mem, Table.mem_of_find?⟩
  next few =>
  have few : ¬ g.Scans b := few
  refine Iff.trans ?_ (and_congr_right fun _ => or_iff_right few).symm
  split
  · next none =>
    refine iff_of_false List.not_mem_nil fun ⟨_, left, right, bottom, top⟩ => ?_
    rcases Nat.mul_eq_zero.mp none with none | none <;> omega
  simp only [List.mem_flatMap, mem_integers, h.mem_inCell]
  constructor
  · rintro ⟨y, between_y, x, between_x, found, rfl, rfl⟩
    exact ⟨found, by omega, by omega, by omega, by omega⟩
  · rintro ⟨found, left, right, bottom, top⟩
    exact ⟨_, by omega, _, by omega, found, rfl⟩

theorem nodup_integers (first : Int) (count : Nat) : (integers first count).Nodup :=
  List.nodup_range.map fun a b same => by simpa using same

theorem Filed.nodup_candidates (h : g.Filed) (minX minY maxX maxY : Single) :
    ((g.candidates minX minY maxX maxY).map (·.1)).Nodup := by
  have apart {c c' : Cell} (other : c ≠ c') : (g.inCell c).Disjoint (g.inCell c') :=
    fun (id, entry) here there => other ((h.mem_inCell.mp here).2.symm.trans (h.mem_inCell.mp there).2)
  unfold candidates
  dsimp only
  split
  · exact g.entries.keys_nodup
  split
  · exact List.nodup_nil
  refine List.Nodup.map_on ?_ (List.nodup_flatMap.mpr ⟨fun y _ => List.nodup_flatMap.mpr ⟨fun x _ =>
    h.nodup_inCell, ?_⟩, ?_⟩)
  · simp only [List.mem_flatMap]
    rintro ⟨id, e⟩ ⟨_, _, _, _, here⟩ ⟨id', e'⟩ ⟨_, _, _, _, there⟩ (rfl : id = id')
    have found := (h.mem_inCell.mp here).1
    rw [(h.mem_inCell.mp there).1] at found
    cases found
    rfl
  · refine (nodup_integers _ _).imp fun other => apart ?_
    simpa using other
  · refine (nodup_integers _ _).imp fun other => ?_
    simp only [Function.onFun, List.Disjoint, List.mem_flatMap]
    rintro entry ⟨x, _, here⟩ ⟨x', _, there⟩
    exact apart (fun same => other (congrArg Cell.y same)) here there

theorem Filed.nodup_filtered (h : g.Filed) (minX minY maxX maxY : Single)
    (p : ElementId × GridEntry → Bool) :
    (((g.candidates minX minY maxX maxY).filter p).map (·.1)).Nodup :=
  (h.nodup_candidates minX minY maxX maxY).sublist (List.filter_sublist.map _)

theorem Filed.mem_withinBox_iff (h : g.Filed) (b : Bounds) :
    id ∈ g.withinBox b ↔ ∃ e, g.entries.find? id = some e ∧ b.Contains e.position := by
  constructor
  · intro listed
    obtain ⟨⟨_, e⟩, kept, rfl⟩ := List.mem_map.mp listed
    obtain ⟨looked, within⟩ := List.mem_filter.mp kept
    exact ⟨e, ((h.mem_candidates_iff b).mp looked).1, of_decide_eq_true within⟩
  · rintro ⟨e, found, within⟩
    exact mem_withinBox h.sized h.files found within

/-- Whatever was put into the index and taken out, with columns of any size, a box, turned inside out
or without numbers as it may be, finds each element that it contains once, and no other. -/
theorem run_withinBox (cellSize : Single) (ops : List Op) (b : Bounds) :
    let g := (new cellSize).run ops
    (g.withinBox b).Nodup ∧
      ∀ id, id ∈ g.withinBox b ↔ ∃ e, latest ops id = some e ∧ b.Contains e.position := by
  intro g
  have filed : g.Filed := run_filed cellSize ops
  refine ⟨filed.nodup_filtered .., fun id => ?_⟩
  rw [filed.mem_withinBox_iff, find?_run]

theorem Filed.mem_withinSphere_iff (h : g.Filed) (center : Vec3) (radius : Single) :
    id ∈ g.withinSphere center radius ↔ ∃ e, g.entries.find? id = some e ∧
      e.position.distanceSquared center ≤ radius * radius ∧
      (g.Scans (.around center radius) ∨ g.Covers (.around center radius) e.position) := by
  constructor
  · intro listed
    obtain ⟨⟨_, e⟩, kept, rfl⟩ := List.mem_map.mp listed
    obtain ⟨here, within⟩ := List.mem_filter.mp kept
    obtain ⟨found, covered⟩ := (h.mem_candidates_iff (.around center radius)).mp here
    exact ⟨e, found, of_decide_eq_true within, covered⟩
  · rintro ⟨e, found, within, covered⟩
    refine List.mem_map.mpr ⟨(id, e), List.mem_filter.mpr ⟨?_, decide_eq_true within⟩, rfl⟩
    exact (h.mem_candidates_iff (.around center radius)).mpr ⟨found, covered⟩

theorem Sized.covers (sized : g.Sized) {center p : Vec3} {radius : Single} (known : radius.Radius)
    (x : center.x.Spans p.x) (y : center.y.Spans p.y)
    (within : p.distanceSquared center ≤ radius * radius) : g.Covers (.around center radius) p := by
  have flat : p.flat.distanceSquared center.flat ≤ radius * radius := by
    refine (Single.parts_le_of_le ?_ (Single.square_nonneg _) within).1
    exact Single.add_nonneg_amount (Single.square_nonneg _) (Single.square_nonneg _)
  obtain ⟨⟨left, right⟩, bottom, top⟩ := Shape.flat_within known x y flat
  exact ⟨sized.axisCell_mono left, sized.axisCell_mono right, sized.axisCell_mono bottom,
    sized.axisCell_mono top⟩

/-- Whatever was put into the index and taken out, a sphere finds those elements once whose squared
distance is no greater than the square of the radius and whose columns are looked at. So it finds all
that are within its radius, and then whatever the size of the columns, just if the columns outnumber
the elements or are those of all that are within the radius. They are, where the square of the radius is
a number with all its digits and rounding takes none of these elements away from the centre. -/
theorem run_withinSphere (cellSize : Single) (ops : List Op) (center : Vec3) (radius : Single) :
    let g := (new cellSize).run ops
    let box := Bounds.around center radius
    (g.withinSphere center radius).Nodup ∧
    (∀ id, id ∈ g.withinSphere center radius ↔ ∃ e, latest ops id = some e ∧
      e.position.distanceSquared center ≤ radius * radius ∧
      (g.Scans box ∨ g.Covers box e.position)) ∧
    ((∀ id, id ∈ g.withinSphere center radius ↔ ∃ e, latest ops id = some e ∧
        e.position.distanceSquared center ≤ radius * radius) ↔
      (g.Scans box ∨ ∀ id e, latest ops id = some e →
        e.position.distanceSquared center ≤ radius * radius → g.Covers box e.position)) ∧
    (radius.Radius → ∀ p, center.x.Spans p.x → center.y.Spans p.y →
      p.distanceSquared center ≤ radius * radius → g.Covers box p) := by
  intro g box
  have filed : g.Filed := run_filed cellSize ops
  have found (id) : id ∈ g.withinSphere center radius ↔ ∃ e, latest ops id = some e ∧
      e.position.distanceSquared center ≤ radius * radius ∧
      (g.Scans box ∨ g.Covers box e.position) := by
    rw [filed.mem_withinSphere_iff, find?_run]
  refine ⟨filed.nodup_filtered .., found, ⟨fun all => ?_, fun covered id => ?_⟩,
    fun known p x y => filed.sized.covers known x y⟩
  · refine or_iff_not_imp_left.mpr fun few id e put within => ?_
    obtain ⟨e', put', _, looked⟩ := (found id).mp ((all id).mpr ⟨e, put, within⟩)
    rw [put] at put'
    cases put'
    exact looked.resolve_left few
  · rw [found]
    refine exists_congr fun e => and_congr_right fun put => and_iff_left_of_imp fun within => ?_
    exact covered.imp_right fun all => all id e put within

def fence : List Op :=
  [.upsert ⟨1⟩ ⟨⟨0xaedbe6ff⟩, .one, .zero⟩ .object, .upsert ⟨2⟩ ⟨.ofNat 2, .one, .zero⟩ .object]

theorem fence_withinSphere :
    let center : Vec3 := ⟨.one, .one, .zero⟩
    let p : Vec3 := ⟨.ofNat 2, .one, .zero⟩
    Single.Radius .one ∧ center.x.Spans p.x ∧ center.y.Spans p.y ∧
      p.distanceSquared center ≤ Single.one * Single.one ∧
      ⟨2⟩ ∈ ((new defaultCellSize).run fence).withinSphere center .one := by
  intro center p
  have radius : Single.Radius .one := by decide
  have x : center.x.Spans p.x := by decide
  have y : center.y.Spans p.y := by decide
  have within : p.distanceSquared center ≤ Single.one * Single.one := by decide
  obtain ⟨_, found, _, covered⟩ := run_withinSphere defaultCellSize fence center .one
  refine ⟨radius, x, y, within, (found ⟨2⟩).mpr ⟨⟨p, .object⟩, rfl, within, .inr ?_⟩⟩
  exact covered radius p x y within

/-- The column of the first object is not looked at, unless columns are so small that all elements
are. -/
theorem object_beyond_columns :
    let center : Vec3 := ⟨.one, .one, .zero⟩
    let p : Vec3 := ⟨⟨0xaedbe6ff⟩, .one, .zero⟩
    latest fence ⟨1⟩ = some ⟨p, .object⟩ ∧ p.distanceSquared center ≤ Single.one * Single.one ∧
      ⟨1⟩ ∉ ((new defaultCellSize).run fence).withinSphere center .one ∧
      ⟨1⟩ ∈ ((new .one).run fence).withinSphere center .one := by
  decide +kernel

end SharedWorld.Grid
