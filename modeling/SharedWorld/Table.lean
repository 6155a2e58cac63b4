/-! Tables in key order. A table is a list of entries whose keys ascend strictly, so each key occurs
at most once and every listing comes out sorted. -/
namespace SharedWorld

/-- Keys that are told apart, and ordered, by a number. -/
class Ranked (κ : Type) where
  rank : κ → Nat
  rank_injective : ∀ {a b : κ}, rank a = rank b → a = b

export Ranked (rank)

variable {κ α β : Type}

def Ascending [Ranked κ] (entries : List (κ × α)) : Prop :=
  entries.Pairwise (fun a b => rank a.1 < rank b.1)

structure Table (κ α : Type) [Ranked κ] where
  entries : List (κ × α)
  ascending : Ascending entries
deriving DecidableEq

namespace Table
variable [Ranked κ]

def empty : Table κ α := ⟨[], .nil⟩

instance : Inhabited (Table κ α) := ⟨empty⟩

def lookup (k : κ) : List (κ × α) → Option α
  | [] => none
  | (j, a) :: rest => if rank j = rank k then some a else lookup k rest

def find? (t : Table κ α) (k : κ) : Option α := lookup k t.entries

def contains (t : Table κ α) (k : κ) : Bool := (t.find? k).isSome

def keys (t : Table κ α) : List κ := t.entries.map (·.1)

def values (t : Table κ α) : List α := t.entries.map (·.2)

def size (t : Table κ α) : Nat := t.entries.length

def isEmpty (t : Table κ α) : Bool := t.entries.isEmpty

instance : Membership κ (Table κ α) := ⟨fun t k => (t.find? k).isSome⟩

instance (k : κ) (t : Table κ α) : Decidable (k ∈ t) := inferInstanceAs (Decidable (_ = true))

/-- The entry for `k` is put at its place; an earlier entry for `k` gives way. -/
def place (k : κ) (a : α) : List (κ × α) → List (κ × α)
  | [] => [(k, a)]
  | (j, b) :: rest =>
    if rank k < rank j then (k, a) :: (j, b) :: rest
    else if rank k = rank j then (k, a) :: rest
    else (j, b) :: place k a rest

theorem mem_place {k : κ} {a : α} {x : κ × α} {xs : List (κ × α)} (h : x ∈ place k a xs) :
    x = (k, a) ∨ x ∈ xs := by
  induction xs with
  | nil => simp_all [place]
  | cons y ys ih => grind [place]

theorem ascending_place (k : κ) (a : α) {xs : List (κ × α)} (h : Ascending xs) :
    Ascending (place k a xs) := by
  induction xs with
  | nil => simp [place, Ascending]
  | cons y ys ih =>
    obtain ⟨j, b⟩ := y
    have hj := List.pairwise_cons.mp h
    unfold place
    split
    · rename_i hk
      refine List.pairwise_cons.mpr ⟨?_, h⟩
      intro x hx
      rcases List.mem_cons.mp hx with rfl | hx
      · exact hk
      · exact Nat.lt_trans hk (hj.1 x hx)
    · split
      · rename_i _ hk
        exact List.pairwise_cons.mpr ⟨fun x hx => hk ▸ hj.1 x hx, hj.2⟩
      · refine List.pairwise_cons.mpr ⟨fun x hx => ?_, ih hj.2⟩
        rcases mem_place hx with rfl | hx
        · show rank j < rank k
          omega
        · exact hj.1 x hx

def insert (t : Table κ α) (k : κ) (a : α) : Table κ α :=
  ⟨place k a t.entries, ascending_place k a t.ascending⟩

def erase (t : Table κ α) (k : κ) : Table κ α :=
  ⟨t.entries.filter (fun x => rank x.1 ≠ rank k), t.ascending.filter _⟩

def modify (t : Table κ α) (k : κ) (f : α → α) : Table κ α :=
  ⟨t.entries.map (fun x => if rank x.1 = rank k then (x.1, f x.2) else x), by
    refine List.pairwise_map.mpr (t.ascending.imp ?_)
    intro a b h
    split <;> split <;> exact h⟩

def map (f : α → β) (t : Table κ α) : Table κ β :=
  ⟨t.entries.map (fun x => (x.1, f x.2)), List.pairwise_map.mpr (t.ascending.imp (fun h => h))⟩

def ofList (entries : List (κ × α)) : Table κ α :=
  entries.foldl (fun t x => t.insert x.1 x.2) empty

theorem lookup_place_self (k : κ) (a : α) (xs : List (κ × α)) : lookup k (place k a xs) = some a := by
  induction xs with
  | nil => simp [place, lookup]
  | cons y ys ih =>
    unfold place
    split
    · simp [lookup]
    · split
      · simp [lookup]
      · rename_i h
        simp [lookup, Ne.symm h, ih]

theorem lookup_place_of_ne {j k : κ} (h : j ≠ k) (a : α) (xs : List (κ × α)) :
    lookup j (place k a xs) = lookup j xs := by
  have hr : rank k ≠ rank j := fun e => h (Ranked.rank_injective e).symm
  induction xs with
  | nil => simp [place, lookup, hr]
  | cons y ys ih => grind [place, lookup]

@[simp] theorem find?_empty (k : κ) : (empty : Table κ α).find? k = none := rfl

@[simp] theorem find?_insert_self (t : Table κ α) (k : κ) (a : α) :
    (t.insert k a).find? k = some a :=
  lookup_place_self k a t.entries

theorem find?_insert_of_ne (t : Table κ α) {j k : κ} (h : j ≠ k) (a : α) :
    (t.insert k a).find? j = t.find? j :=
  lookup_place_of_ne h a t.entries

theorem lookup_filter (j k : κ) (xs : List (κ × α)) :
    lookup j (xs.filter (fun x => rank x.1 ≠ rank k)) = if rank j = rank k then none else lookup j xs := by
  induction xs with
  | nil => simp [lookup]
  | cons y ys ih =>
    by_cases hk : rank y.1 = rank k <;> by_cases hj : rank y.1 = rank j <;> grind [lookup]

@[simp] theorem find?_erase_self (t : Table κ α) (k : κ) : (t.erase k).find? k = none :=
  (lookup_filter k k t.entries).trans (if_pos rfl)

theorem find?_erase_of_ne (t : Table κ α) {j k : κ} (h : j ≠ k) :
    (t.erase k).find? j = t.find? j :=
  (lookup_filter j k t.entries).trans (if_neg fun e => h (Ranked.rank_injective e))

theorem lookup_modify (j k : κ) (f : α → α) (xs : List (κ × α)) :
    lookup j (xs.map (fun x => if rank x.1 = rank k then (x.1, f x.2) else x)) =
      if rank j = rank k then (lookup j xs).map f else lookup j xs := by
  induction xs with
  | nil => simp [lookup]
  | cons y ys ih =>
    by_cases hk : rank y.1 = rank k <;> by_cases hj : rank y.1 = rank j <;> grind [lookup]

theorem find?_modify (t : Table κ α) (j k : κ) (f : α → α) :
    (t.modify k f).find? j = if rank j = rank k then (t.find? j).map f else t.find? j :=
  lookup_modify j k f t.entries

theorem lookup_map (f : α → β) (k : κ) (xs : List (κ × α)) :
    lookup k (xs.map (fun x => (x.1, f x.2))) = (lookup k xs).map f := by
  induction xs with
  | nil => rfl
  | cons y ys ih => by_cases h : rank y.1 = rank k <;> simp_all [lookup]

theorem find?_map (f : α → β) (t : Table κ α) (k : κ) : (t.map f).find? k = (t.find? k).map f :=
  lookup_map f k t.entries

end Table
end SharedWorld
