import SharedWorld.Proofs.Grid.Run
import SharedWorld.Proofs.Shape.Region
import SharedWorld.Proofs.Single.Multiples

/-! The nearest element. A search goes outwards ring by ring and ends at the first ring that reaches as
far as the lead, or at the last. It answers a nearest element unless one that is nearer than all up to
that ring lies beyond it. That takes rounding: none does where the multiples of the size of a column are
numbers out to where the search ends. -/
namespace SharedWorld.Grid

namespace Wanted
variable {w : Wanted} {c : ElementId × GridEntry} {best : Option (ElementId × Single)}
  {seen : ElementId × GridEntry → Prop}

def Seeks (w : Wanted) (e : GridEntry) : Prop := w.type.all (· = e.type)

instance (w : Wanted) (e : GridEntry) : Decidable (w.Seeks e) := inferInstanceAs (Decidable (_ = true))

def distance (w : Wanted) (e : GridEntry) : Single := e.position.distanceSquared w.point

/-- Of the wanted type, and in reach. -/
def Admits (w : Wanted) (e : GridEntry) : Prop := w.Seeks e ∧ w.distance e ≤ w.maxSquared

instance (w : Wanted) (e : GridEntry) : Decidable (w.Admits e) := inferInstanceAs (Decidable (_ ∧ _))

/-- Of what was seen, nothing that is admitted is nearer than what is in the lead. -/
def Leads (w : Wanted) (seen : ElementId × GridEntry → Prop) : Option (ElementId × Single) → Prop
  | none => ∀ c, seen c → ¬ w.Admits c.2
  | some (id, d) => (∃ e, seen (id, e) ∧ w.Admits e ∧ w.distance e = d) ∧
      ∀ c, seen c → w.Admits c.2 → ¬ w.distance c.2 < d

theorem Leads.congr (h : w.Leads seen best) {seen' : ElementId × GridEntry → Prop}
    (same : ∀ c, seen' c ↔ seen c) : w.Leads seen' best :=
  (funext fun c => propext (same c) : seen' = seen) ▸ h

theorem consider_eq (w : Wanted) (best : Option (ElementId × Single)) (c : ElementId × GridEntry) :
    w.consider best c =
      if w.Admits c.2 ∧ best.all (fun b => w.distance c.2 < b.2) then some (c.1, w.distance c.2)
      else best := by
  show (if w.Seeks c.2 then
    if w.distance c.2 ≤ w.maxSquared ∧ best.all (fun b => w.distance c.2 < b.2) then
      some (c.1, w.distance c.2) else best else best) = _
  by_cases sought : w.Seeks c.2
  · rw [if_pos sought]
    exact if_congr (and_congr_left' (and_iff_right sought).symm) rfl rfl
  · rw [if_neg sought, if_neg fun taken => sought taken.1.1]

theorem Leads.consider (h : w.Leads seen best) :
    w.Leads (fun a => seen a ∨ a = c) (w.consider best c) := by
  rw [consider_eq]
  split
  · next taken =>
    obtain ⟨admitted, ahead⟩ := taken
    refine ⟨⟨c.2, .inr rfl, admitted, rfl⟩, ?_⟩
    rintro a (before | rfl) admits less
    · cases best with
      | none => exact h a before admits
      | some lead =>
        have ahead : w.distance c.2 < lead.2 := of_decide_eq_true ahead
        exact h.2 a before admits (Single.lt_of_lt_of_le less (Single.le_of_lt ahead))
    · exact Single.lt_irrefl _ less
  · next passed =>
    cases best with
    | none =>
      rintro a (before | rfl) admits
      · exact h a before admits
      · exact passed ⟨admits, rfl⟩
    | some lead =>
      obtain ⟨⟨e, met, led⟩, least⟩ := h
      refine ⟨⟨e, .inl met, led⟩, ?_⟩
      rintro a (before | rfl) admits less
      · exact least a before admits less
      · exact passed ⟨admits, decide_eq_true less⟩

theorem Leads.foldl (h : w.Leads seen best) (l : List (ElementId × GridEntry)) :
    w.Leads (fun a => seen a ∨ a ∈ l) (l.foldl w.consider best) := by
  induction l generalizing seen best with
  | nil => exact h.congr fun a => or_iff_left List.not_mem_nil
  | cons c l ih =>
    refine (ih (h.consider (c := c))).congr fun a => ?_
    rw [List.mem_cons, or_assoc]

theorem leads_nothing : w.Leads (fun _ => False) none := nofun

theorem Leads.any_iff (h : w.Leads seen best) (q : Single) :
    best.any (fun b => b.2 ≤ q) ↔ ∃ c, seen c ∧ w.Admits c.2 ∧ w.distance c.2 ≤ q := by
  cases best with
  | none => exact iff_of_false nofun fun ⟨c, met, admits, _⟩ => h c met admits
  | some lead =>
    obtain ⟨id, d⟩ := lead
    obtain ⟨⟨e, met, admits, rfl⟩, least⟩ := h
    rw [Option.any_some, decide_eq_true_iff]
    refine ⟨fun near => ⟨_, met, admits, near⟩, fun ⟨c, met', admits', near⟩ => ?_⟩
    have number := (Single.le_iff.mp near).1
    have lead := (Single.le_iff.mp admits.2).1
    exact Single.le_trans (Single.le_of_not_lt number lead (least c met' admits')) near

end Wanted

/-- The ring around a centre on which a column lies, the shorter way round. -/
def ring (center c : Cell) : Nat :=
  Max.max (wrap (c.x - center.x)).natAbs (wrap (c.y - center.y)).natAbs

def Held (n : Int) : Prop := -2147483648 ≤ n ∧ n ≤ 2147483647

theorem axisCell_held (g : Grid) (v : Single) : Held (g.axisCell v) := by
  unfold axisCell Single.floor32 Single.floorWithin Single.clamp Held
  split
  · decide
  · decide
  · decide
  · split_ifs <;> omega

theorem wrap_natAbs_le (n : Int) : (wrap n).natAbs ≤ n.natAbs := by
  unfold wrap Int.bmod
  dsimp only
  split_ifs <;> omega

theorem wrap_wrap_sub (a n : Int) : wrap (wrap (a + n) - a) = wrap n := by
  unfold wrap
  rw [Int.bmod_sub_bmod, add_sub_cancel_left]

theorem wrap_add_wrap {a b : Int} (hb : Held b) : wrap (a + wrap (b - a)) = b := by
  unfold Held at hb
  unfold wrap
  rw [Int.add_bmod_bmod, add_sub_cancel]
  exact Int.bmod_eq_of_le (by omega) (by omega)

theorem mem_ringCells {center c : Cell} {n : Nat} : c ∈ ringCells center n ↔
    ∃ dx dy : Int, Max.max dx.natAbs dy.natAbs = n ∧
      wrap (center.x + dx) = c.x ∧ wrap (center.y + dy) = c.y := by
  unfold ringCells
  simp only [List.mem_flatMap, List.mem_filterMap, mem_integers, Option.ite_none_right_eq_some,
    Option.some_inj]
  constructor
  · rintro ⟨dy, between_y, dx, between_x, edge, rfl⟩
    exact ⟨dx, dy, by omega, rfl, rfl⟩
  · rintro ⟨dx, dy, rfl, x, y⟩
    exact ⟨dy, by omega, dx, by omega, by omega, by rw [x, y]⟩

/-- Up to a ring the rings hold all columns that lie no farther out. -/
theorem exists_ring_iff {center c : Cell} (hx : Held c.x) (hy : Held c.y) {n : Nat} :
    (∃ m ≤ n, c ∈ ringCells center m) ↔ ring center c ≤ n := by
  simp only [mem_ringCells]
  constructor
  · rintro ⟨_, le, dx, dy, rfl, x, y⟩
    unfold ring
    rw [← x, ← y, wrap_wrap_sub, wrap_wrap_sub]
    exact (max_le_max (wrap_natAbs_le dx) (wrap_natAbs_le dy)).trans le
  · intro le
    exact ⟨_, le, _, _, rfl, wrap_add_wrap hx, wrap_add_wrap hy⟩

variable {g : Grid} {w : Wanted} {center : Cell}

def Around (g : Grid) (center : Cell) (n : Nat) (c : ElementId × GridEntry) : Prop :=
  g.entries.find? c.1 = some c.2 ∧ ring center (g.cellAt c.2.position) ≤ n

theorem Filed.mem_ring (h : g.Filed) {n : Nat} {c : ElementId × GridEntry} :
    g.Around center n c ↔ ∃ m ≤ n, c ∈ (ringCells center m).flatMap g.inCell := by
  have reached : (∃ m ≤ n, g.cellAt c.2.position ∈ ringCells center m) ↔ _ :=
    exists_ring_iff (axisCell_held g c.2.position.x) (axisCell_held g c.2.position.y)
  simp only [List.mem_flatMap, h.mem_inCell]
  constructor
  · rintro ⟨indexed, le⟩
    obtain ⟨m, le, listed⟩ := reached.mpr le
    exact ⟨m, le, _, listed, indexed, rfl⟩
  · rintro ⟨m, le, _, listed, indexed, rfl⟩
    exact ⟨indexed, reached.mp ⟨m, le, listed⟩⟩

def reach (g : Grid) (n : Nat) : Single := Single.ofNat n * g.cellSize

/-- A search may end at a ring: something up to it is within what it reaches. -/
def Settles (g : Grid) (w : Wanted) (center : Cell) (n : Nat) : Prop :=
  ∃ c, g.Around center n c ∧ w.Admits c.2 ∧ w.distance c.2 ≤ g.reach n * g.reach n

open Classical in
theorem Filed.searchRings_cons (h : g.Filed) (first : Nat) (rest : List Nat)
    {best : Option (ElementId × Single)}
    (lead : w.Leads (fun c => ∃ m < first, c ∈ (ringCells center m).flatMap g.inCell) best) :
    let next := ((ringCells center first).flatMap g.inCell).foldl w.consider best
    w.Leads (g.Around center first) next ∧ g.searchRings w center (first :: rest) best =
      if g.Settles w center first then next else g.searchRings w center rest next := by
  intro next
  have seen : w.Leads (g.Around center first) next := by
    refine (lead.foldl _).congr fun c => ?_
    rw [h.mem_ring]
    simp only [Nat.le_iff_lt_or_eq, or_and_right, exists_or, exists_eq_left]
  exact ⟨seen, if_congr (seen.any_iff (g.reach first * g.reach first)) rfl rfl⟩

theorem Filed.searchRings (h : g.Filed) (w : Wanted) (center : Cell) (count first : Nat)
    {best : Option (ElementId × Single)}
    (lead : w.Leads (fun c => ∃ m < first, c ∈ (ringCells center m).flatMap g.inCell) best) :
    ∃ n, first ≤ n ∧ n ≤ first + count ∧
      w.Leads (g.Around center n)
        (g.searchRings w center (List.range' first (count + 1)) best) ∧
      (n = first + count ∨ g.Settles w center n) ∧
      ∀ k, first ≤ k → k < n → ¬ g.Settles w center k := by
  -- `lead` is carried from ring to ring: who leads of what lies in the rings before the first.
  induction count generalizing first best with
  | zero =>
    obtain ⟨seen, step⟩ := h.searchRings_cons first [] lead
    refine ⟨first, le_rfl, le_rfl, ?_, .inl rfl, fun k le less => absurd less le.not_gt⟩
    rw [List.range'_one, step]
    split <;> exact seen
  | succ count ih =>
    obtain ⟨seen, step⟩ := h.searchRings_cons first (List.range' (first + 1) (count + 1)) lead
    rw [List.range'_succ, step]
    split
    · next settled =>
      refine ⟨first, le_rfl, Nat.le_add_right _ _, seen, .inr settled, ?_⟩
      exact fun k le less => absurd less le.not_gt
    · next onward =>
      have lead := seen.congr fun c => (by simp only [h.mem_ring, Nat.lt_succ_iff] :
        (∃ m < first + 1, c ∈ (ringCells center m).flatMap g.inCell) ↔ g.Around center first c)
      obtain ⟨n, above, below, leads, last, before⟩ := ih (first + 1) lead
      refine ⟨n, by omega, by omega, leads, last.imp_left (by omega), fun k le less => ?_⟩
      rcases le.eq_or_lt with rfl | later
      · exact onward
      · exact before k later less

/-- Nearer than all up to a ring at which a search may end, and beyond that ring. -/
def Hidden (g : Grid) (w : Wanted) (center : Cell) (last : Nat) (e : GridEntry) : Prop :=
  w.Admits e ∧ ∃ n ≤ last, n < ring center (g.cellAt e.position) ∧
    (n = last ∨ g.Settles w center n) ∧
    ∀ c, g.Around center n c → w.Admits c.2 → w.distance e < w.distance c.2

def Complete (g : Grid) (w : Wanted) (best : Option (ElementId × Single)) : Prop :=
  w.Leads (fun c => g.entries.find? c.1 = some c.2) best

theorem Filed.complete_iff (h : g.Filed) (last : Nat) :
    g.Complete w (g.searchRings w center (List.range (last + 1)) none) ↔
      ∀ id e, g.entries.find? id = some e → ¬ g.Hidden w center last e := by
  obtain ⟨n, -, within, leads, ends, before⟩ := h.searchRings w center last 0
    (Wanted.leads_nothing.congr fun c => by simp)
  rw [Nat.zero_add] at within ends
  rw [List.range_eq_range']
  generalize g.searchRings w center _ none = best at leads ⊢
  constructor
  · rintro complete id e indexed ⟨admits, k, small, _, settled, nearer⟩
    -- The search ended at this ring, if not before.
    have early : n ≤ k := by
      by_contra late
      have unsettled := before k (Nat.zero_le k) (not_le.mp late)
      exact settled.elim (by omega) unsettled
    cases best with
    | none => exact complete (id, e) indexed admits
    | some lead =>
      obtain ⟨⟨e', ⟨indexed', around⟩, admits', led⟩, _⟩ := leads
      have nearer := nearer (lead.1, e') ⟨indexed', around.trans early⟩ admits'
      exact complete.2 (id, e) indexed admits (led ▸ nearer)
  · intro shown
    have hidden (c : ElementId × GridEntry) (indexed : g.entries.find? c.1 = some c.2)
        (admits : w.Admits c.2)
        (nearer : ∀ a, g.Around center n a → w.Admits a.2 → w.distance c.2 < w.distance a.2) : False := by
      refine shown c.1 c.2 indexed ⟨admits, n, within, not_le.mp fun around => ?_, ends, nearer⟩
      exact Single.lt_irrefl _ (nearer c ⟨indexed, around⟩ admits)
    cases best with
    | none =>
      intro c indexed admits
      exact hidden c indexed admits fun a met admits' => absurd admits' (leads a met)
    | some lead =>
      obtain ⟨⟨e, ⟨indexed, _⟩, led⟩, least⟩ := leads
      refine ⟨⟨e, indexed, led⟩, fun c indexed admits less => hidden c indexed admits ?_⟩
      intro a met admits'
      have number := (Single.le_iff.mp admits'.2).1
      have lead := (Single.lt_iff.mp less).2.1
      exact Single.lt_of_lt_of_le less (Single.le_of_not_lt number lead (least a met admits'))

/-- The multiples of the size of a column are numbers, out to where a search ends; the square of the
radius is finite, and it or that of the size has all its digits. -/
structure Gauged (g : Grid) (point : Vec3) (radius : Single) (limit : Nat) : Prop where
  ruled : Single.Ruled g.cellSize limit
  x : (g.axisCell point.x).natAbs + g.maxRing radius < limit
  y : (g.axisCell point.y).natAbs + g.maxRing radius < limit
  nonneg : .zero ≤ radius
  finite : radius * radius < .infinity
  normal : Single.leastNormal ≤ radius * radius ∨ Single.leastNormal ≤ g.cellSize * g.cellSize

theorem Sized.reach_eq (sized : g.Sized) {limit n : Nat} (ruled : Single.Ruled g.cellSize limit)
    (few : n ≤ limit) : (g.reach n).isNaN = false ∧ (g.reach n).amount = n * g.cellSize.amount :=
  ⟨Single.view_ne_notANumber.mp (ruled.number sized.finite few).isNumber, ruled.exact n few⟩

theorem Sized.reach_le (sized : g.Sized) {limit n : Nat} (ruled : Single.Ruled g.cellSize limit)
    {o v : Single} (ho : Single.Finite o.view) (hv : Single.Finite v.view)
    (few : (g.axisCell o).natAbs + n < limit)
    (beyond : n < (wrap (g.axisCell v - g.axisCell o)).natAbs) :
    (g.reach n).amount ≤ |(v - o).amount| := by
  have short := ruled.short
  have column {z : Single} (hz : Single.Finite z.view) (k : Int) (low : -2147483648 < k)
      (high : k ≤ 2147483647) : k ≤ g.axisCell z ↔ k ≤ (z / g.cellSize).amount :=
    Single.le_floor32_iff (Single.div_nearest sized.finite sized.positive hz).isNaN low high
  have before {z : Single} (hz : Single.Finite z.view) (k : Int) (low : -2147483648 < k)
      (high : k ≤ 2147483647) : g.axisCell z < k ↔ (z / g.cellSize).amount < k := by
    rw [← not_le, ← not_le, column hz k low high]
  have number := ruled.number sized.finite (k := n) (by omega)
  have exact := (sized.reach_eq ruled (n := n) (by omega)).2
  have difference := Single.sub_nearest hv ho
  have far := beyond.trans_le (wrap_natAbs_le _)
  -- The column lies on one side or on the other, and rounding keeps the difference in order.
  obtain right | left : g.axisCell o + n < g.axisCell v ∨ g.axisCell v < g.axisCell o - n := by omega
  · have apart := ruled.le_sub sized.finite sized.positive ho hv (k := g.axisCell o + n + 1) (n := n)
      (by omega) (by omega) (by omega) ((column hv _ (by omega) (by omega)).mp (by omega))
      ((before ho _ (by omega) (by omega)).mp (by omega))
    rw [← exact] at apart
    exact (difference.ge number apart).trans (le_abs_self _)
  · have apart := ruled.le_sub sized.finite sized.positive hv ho (k := g.axisCell o) (n := n)
      (by omega) (by omega) (by omega) ((column ho _ (by omega) (by omega)).mp le_rfl)
      ((before hv _ (by omega) (by omega)).mp left)
    rw [← exact] at apart
    have less : v.amount - o.amount ≤ Single.amountOf (g.reach n).view.neg := by
      rw [Single.amountOf_neg]
      exact neg_sub o.amount v.amount ▸ neg_le_neg apart
    have computed := difference.le number.neg less
    rw [Single.amountOf_neg] at computed
    exact (le_neg_of_le_neg computed).trans (neg_le_abs _)

section
variable {point : Vec3} {radius : Single} {limit : Nat}

theorem Gauged.maxRing_lt (h : g.Gauged point radius limit) : g.maxRing radius < limit :=
  (Nat.le_add_left _ _).trans_lt h.x

theorem Gauged.reach_square_le (h : g.Gauged point radius limit) (sized : g.Sized) {p : Vec3} {n : Nat}
    (within : p.distanceSquared point ≤ radius * radius) (few : n ≤ g.maxRing radius)
    (beyond : n < ring (g.cellAt point) (g.cellAt p)) :
    g.reach n * g.reach n ≤ p.distanceSquared point := by
  have number := (Single.le_iff.mp within).1
  obtain ⟨flat, -⟩ := Single.parts_le_of_le
    (Single.add_nonneg_amount (Single.square_nonneg _) (Single.square_nonneg _))
    (Single.square_nonneg (p.z - point.z)) (Single.le_refl_of_number number)
  obtain ⟨dx, dy⟩ := Single.parts_le_of_le (Single.square_nonneg (p.x - point.x))
    (Single.square_nonneg (p.y - point.y)) flat
  have axis {o v : Single} (near : (v - o) * (v - o) ≤ p.distanceSquared point)
      (few : (g.axisCell o).natAbs + n < limit)
      (beyond : n < (wrap (g.axisCell v - g.axisCell o)).natAbs) :
      g.reach n * g.reach n ≤ p.distanceSquared point := by
    have finite := Single.finite_of_square_lt
      (Single.lt_of_le_of_lt (Single.le_trans near within) h.finite)
    obtain ⟨hv, ho⟩ := Single.finite_of_sub finite
    obtain ⟨known, value⟩ := sized.reach_eq h.ruled (few.le.trans' (Nat.le_add_left _ _))
    have nonneg : 0 ≤ (g.reach n).amount := by
      rw [value]
      exact mul_nonneg n.cast_nonneg sized.positive.le
    have reached := sized.reach_le h.ruled ho hv few beyond
    rw [← abs_of_nonneg nonneg] at reached
    have squares := Single.square_le_square known (Single.finite_iff.mp finite).1 reached
    refine Single.le_trans (Single.le_iff.mpr ⟨(Single.square_nearest known).isNaN, ?_, squares⟩) near
    exact (Single.le_iff.mp near).1
  rcases lt_max_iff.mp beyond with beyond | beyond
  · exact axis dx ((Nat.add_le_add_left few _).trans_lt h.x) beyond
  · exact axis dy ((Nat.add_le_add_left few _).trans_lt h.y) beyond

theorem Gauged.radius_lt (h : g.Gauged point radius limit) (sized : g.Sized) :
    radius * radius < g.reach (g.maxRing radius) * g.reach (g.maxRing radius) := by
  have short := h.ruled.short
  have few := h.maxRing_lt
  obtain ⟨_, number, nonneg⟩ := Single.le_iff.mp h.nonneg
  obtain ⟨square, _, reached⟩ := Single.lt_iff.mp h.finite
  rw [Single.amount_zero] at nonneg
  rw [Single.amount_infinity] at reached
  obtain ⟨known, value⟩ := sized.reach_eq h.ruled few.le
  have finite := Single.finite_of_square_lt h.finite
  have less : radius.amount < (g.reach (g.maxRing radius)).amount := by
    have quotient := (Single.div_nearest sized.finite sized.positive finite).isNaN
    have rings : (radius / g.cellSize).amount < (g.maxRing radius : Int) := by
      have up : (radius / g.cellSize).amount ≤ ((radius / g.cellSize).ceilNat 2147483648 : Nat) :=
        Single.le_ceilNat quotient (by decide) (by unfold maxRing at few; omega)
      unfold maxRing
      push_cast
      linarith
    have := Single.lt_of_div_lt sized.finite sized.positive finite (by omega) rings
    rw [value]
    exact_mod_cast this
  refine Single.lt_iff.mpr ⟨square, (Single.square_nearest known).isNaN, ?_⟩
  -- A square without all its digits is less than that of the size, which the last ring reaches.
  by_cases normal : Single.leastNormal ≤ radius * radius
  · have normal := (Single.le_iff.mp normal).2.2
    rw [Single.amount_leastNormal] at normal
    exact Single.square_lt_square number known nonneg normal reached (less.trans_le (le_abs_self _))
  · obtain ⟨unit, size, normal'⟩ := Single.le_iff.mp (h.normal.resolve_left normal)
    have tiny := (Single.lt_iff.mp (Single.lt_of_not_le unit square normal)).2.2
    refine (tiny.trans_le normal').trans_le
      (Single.square_le_square (Single.numbers_of_mul size).1 known ?_)
    have one : (1 : ℚ) ≤ g.maxRing radius := by
      unfold maxRing
      push_cast
      linarith [((radius / g.cellSize).ceilNat 2147483648).cast_nonneg (α := ℚ)]
    rw [value, abs_mul, Nat.abs_cast]
    exact le_mul_of_one_le_left (abs_nonneg _) one

theorem Gauged.not_hidden (h : g.Gauged point radius limit) (sized : g.Sized)
    (type : Option ElementType) (e : GridEntry) :
    ¬ g.Hidden ⟨point, radius * radius, type⟩ (g.cellAt point) (g.maxRing radius) e := by
  rintro ⟨⟨_, within⟩, n, few, beyond, ends, nearer⟩
  have far := h.reach_square_le sized within few beyond
  rcases ends with rfl | ⟨c, around, admits, near⟩
  · have less := Single.lt_of_lt_of_le (h.radius_lt sized) (Single.le_trans far within)
    exact Single.lt_irrefl _ less
  · have less := Single.lt_of_lt_of_le (nearer c around admits) (Single.le_trans near far)
    exact Single.lt_irrefl _ less

end

/-- The right answer: none if nothing is admitted, else an element of the wanted type to which none of
that type is nearer, and how far away it is. -/
structure Answers (w : Wanted) (indexed : ElementId → Option GridEntry)
    (answer : Option (ElementId × Single)) : Prop where
  none_iff : answer = none ↔ ∀ id e, indexed id = some e → ¬ w.Admits e
  nearest : ∀ id d, answer = some (id, d) → ∃ e, indexed id = some e ∧ w.Admits e ∧
    d = (w.distance e).sqrt ∧
    ∀ other e', indexed other = some e' → w.Seeks e' → ¬ w.distance e' < w.distance e

theorem answers_iff {best : Option (ElementId × Single)} {seen : ElementId × GridEntry → Prop}
    (leads : w.Leads seen best) (known : ∀ c, seen c → g.entries.find? c.1 = some c.2) :
    Answers w g.entries.find? (best.map fun (id, d) => (id, d.sqrt)) ↔ g.Complete w best := by
  cases best with
  | none =>
    refine ⟨fun right c => right.none_iff.mp rfl c.1 c.2, fun complete => ⟨?_, nofun⟩⟩
    exact iff_of_true rfl fun id e => complete (id, e)
  | some lead =>
    obtain ⟨id, d⟩ := lead
    obtain ⟨⟨e, met, admits, rfl⟩, _⟩ := leads
    have indexed : g.entries.find? id = some e := known (id, e) met
    constructor
    · intro right
      obtain ⟨e', indexed', _, _, least⟩ := right.nearest id _ rfl
      obtain rfl : e' = e := Option.some_inj.mp (indexed'.symm.trans indexed)
      exact ⟨⟨e', indexed, admits, rfl⟩, fun c there admits' => least c.1 c.2 there admits'.1⟩
    · rintro ⟨_, least⟩
      refine ⟨iff_of_false nofun fun all => all id e indexed admits, ?_⟩
      rintro _ _ ⟨⟩
      refine ⟨e, indexed, admits, rfl, fun other e' there sought less => ?_⟩
      have admits' : w.Admits e' := ⟨sought, Single.le_trans (Single.le_of_lt less) admits.2⟩
      exact least (other, e') there admits' less

/-- Rings would hold more columns than there are elements, or go on without end. -/
def Sweeps (g : Grid) (radius : Single) : Prop :=
  ¬ radius.isFinite ∨ g.size < (2 * g.maxRing radius + 1) * (2 * g.maxRing radius + 1)

instance (g : Grid) (radius : Single) : Decidable (g.Sweeps radius) :=
  inferInstanceAs (Decidable (_ ∨ _))

theorem Filed.answers_nearest_iff (h : g.Filed) (point : Vec3) (radius : Single)
    (type : Option ElementType) :
    let w : Wanted := ⟨point, radius * radius, type⟩
    Answers w g.entries.find? (g.nearest point radius type) ↔ g.Sweeps radius ∨
      ∀ id e, g.entries.find? id = some e →
        ¬ g.Hidden w (g.cellAt point) (g.maxRing radius) e := by
  intro w
  unfold nearest
  dsimp only
  split
  · next sweeps =>
    have leads : w.Leads (fun c => False ∨ c ∈ g.entries.entries) _ :=
      Wanted.leads_nothing.foldl g.entries.entries
    have complete : g.Complete w (g.entries.entries.foldl w.consider none) :=
      leads.congr fun c => by rw [false_or]; exact ⟨Table.mem_of_find?, Table.find?_of_mem⟩
    refine iff_of_true ((answers_iff complete fun c => id).mpr complete) (.inl sweeps)
  · next searches =>
    obtain ⟨n, _, _, leads, _⟩ := h.searchRings w (g.cellAt point) (g.maxRing radius) 0
      (Wanted.leads_nothing.congr fun c => by simp)
    have searches : ¬ g.Sweeps radius := searches
    rw [← List.range_eq_range'] at leads
    rw [answers_iff leads fun c around => around.1, h.complete_iff, or_iff_right searches]

/-- Whatever was put into the index and taken out, the answer is right just if all elements are gone
through, or none that is nearer than all up to a ring at which the search may end lies beyond that ring.
None does where the multiples of the size of a column are numbers out to where the search ends, and the
radius has a square. -/
theorem run_nearest (cellSize : Single) (ops : List Op) (point : Vec3) (radius : Single)
    (type : Option ElementType) :
    let g := (new cellSize).run ops
    let w : Wanted := ⟨point, radius * radius, type⟩
    (Answers w (latest ops) (g.nearest point radius type) ↔ g.Sweeps radius ∨
      ∀ id e, latest ops id = some e → ¬ g.Hidden w (g.cellAt point) (g.maxRing radius) e) ∧
    ∀ limit, g.Gauged point radius limit → Answers w (latest ops) (g.nearest point radius type) := by
  intro g w
  have filed : g.Filed := run_filed cellSize ops
  have indexed : g.entries.find? = latest ops := funext (find?_run cellSize ops)
  have answers := filed.answers_nearest_iff point radius type
  rw [indexed] at answers
  refine ⟨answers, fun limit gauged => answers.mpr (.inr fun id e _ => ?_)⟩
  exact gauged.not_hidden filed.sized type e

theorem ruled_default : Single.Ruled defaultCellSize 671088 := by
  have form : defaultCellSize.view = .finite .positive 0xc80000 (-18) (by decide) := rfl
  have value : defaultCellSize.amount = (25 : Nat) * 2 ^ (1 : ℤ) := by
    rw [Single.amount, form, Single.amountOf_finite]
    norm_num [Float.Model.UnpackedFloat.Sign.apply]
  exact Single.ruled_of_digits value (by decide) (by decide) (by decide) (by decide)
    (Single.finite_of_isFinite (by decide))

def colonnade : List Op :=
  (List.range 25).map fun n => .upsert ⟨.ofNat (n + 1)⟩ ⟨.ofNat (3 * n), .zero, .zero⟩ .object

theorem colonnade_nearest :
    let g := (new defaultCellSize).run colonnade
    let point : Vec3 := ⟨.ofNat 20, .zero, .zero⟩
    ¬ g.Sweeps defaultCellSize ∧ g.Gauged point defaultCellSize 671088 ∧
      g.nearest point defaultCellSize none = some (⟨8⟩, .one) ∧
      Answers ⟨point, defaultCellSize * defaultCellSize, none⟩ (latest colonnade)
        (g.nearest point defaultCellSize none) := by
  intro g point
  have size : g.cellSize = defaultCellSize := by decide +kernel
  have gauged : g.Gauged point defaultCellSize 671088 :=
    ⟨size ▸ ruled_default, by decide +kernel, by decide +kernel, by decide, by decide,
      .inr (size ▸ by decide)⟩
  refine ⟨by decide +kernel, gauged, by decide +kernel, ?_⟩
  exact (run_nearest defaultCellSize colonnade point defaultCellSize none).2 671088 gauged

def market : List Op :=
  .upsert ⟨1⟩ ⟨⟨0x40533333⟩, .zero, .zero⟩ .object ::
    .upsert ⟨2⟩ ⟨.zero, ⟨0x40533334⟩, .zero⟩ .object ::
      (List.range 79).map fun n => .upsert ⟨.ofNat (n + 3)⟩ ⟨.ofNat 1000, .zero, .zero⟩ .object

/-- Three columns of the size 1.1 are as wide as 3.3, and where they are told apart that is farther
than the nearer object is away. -/
theorem object_behind_ring :
    let size : Single := ⟨0x3f8ccccd⟩
    let point : Vec3 := ⟨⟨0xaedbe6ff⟩, .zero, .zero⟩
    let radius : Single := ⟨0x40533334⟩
    ((new size).run market).nearest point radius none = some (⟨2⟩, ⟨0x40533334⟩) ∧
      ((new defaultCellSize).run market).nearest point radius none = some (⟨1⟩, ⟨0x40533333⟩) ∧
      ¬ Answers ⟨point, radius * radius, none⟩ (latest market)
        (((new size).run market).nearest point radius none) := by
  intro size point radius
  have answer : ((new size).run market).nearest point radius none = some (⟨2⟩, ⟨0x40533334⟩) := by
    decide +kernel
  refine ⟨answer, by decide +kernel, fun right => ?_⟩
  obtain ⟨e, there, _, _, least⟩ := right.nearest _ _ answer
  obtain rfl : ⟨⟨.zero, ⟨0x40533334⟩, .zero⟩, .object⟩ = e :=
    Option.some_inj.mp ((by decide +kernel : some _ = latest market ⟨2⟩).trans there)
  refine least ⟨1⟩ ⟨⟨⟨0x40533333⟩, .zero, .zero⟩, .object⟩ (by decide +kernel) rfl (by decide +kernel)

end SharedWorld.Grid
