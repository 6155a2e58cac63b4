import Mathlib.Data.List.Nodup
import SharedWorld.World.Store

/-! Going up along a partial map, as from an element to its parent, its target or its tower. A way up
that ends visits nothing twice, so among finitely many it ends within as many steps. -/
namespace SharedWorld
variable {α : Type} {up up' : α → Option α} {a b : α}

/-- Where so many steps up lead. -/
def climb (up : α → Option α) : Nat → α → Option α
  | 0, a => some a
  | n + 1, a => (up a).bind (climb up n)

/-- The way up from here comes to an end. -/
inductive Grounded (up : α → Option α) : α → Prop
  | top {a : α} : up a = none → Grounded up a
  | step {a b : α} : up a = some b → Grounded up b → Grounded up a

theorem climb_add (m n : Nat) (a : α) :
    climb up (m + n) a = (climb up m a).bind (climb up n) := by
  induction m generalizing a with
  | zero => simp [climb]
  | succ m ih =>
    rw [Nat.succ_add]
    cases h : up a with
    | none => simp [climb, h]
    | some b => simpa [climb, h] using ih b

theorem climb_succ (n : Nat) (a : α) : climb up (n + 1) a = (climb up n a).bind up := by
  rw [climb_add]
  congr 1
  funext b
  cases h : up b <;> simp [climb, h]

theorem climb_none_mono {m n : Nat} (h : climb up m a = none) (hmn : m ≤ n) :
    climb up n a = none := by
  obtain ⟨k, rfl⟩ := Nat.exists_eq_add_of_le hmn
  rw [climb_add, h]
  rfl

theorem climb_injective (inj : ∀ {a b c}, up a = some c → up b = some c → a = b) {n : Nat} {c : α}
    (ha : climb up n a = some c) (hb : climb up n b = some c) : a = b := by
  induction n generalizing c with
  | zero =>
    cases ha
    cases hb
    rfl
  | succ n ih =>
    rw [climb_succ] at ha hb
    obtain ⟨a', ha, up_a⟩ := Option.bind_eq_some_iff.mp ha
    obtain ⟨b', hb, up_b⟩ := Option.bind_eq_some_iff.mp hb
    exact ih ha (inj up_a up_b ▸ hb)

theorem climb_congr (same : ∀ n b, climb up n a = some b → up' b = up b) (n : Nat) :
    climb up' n a = climb up n a := by
  induction n with
  | zero => rfl
  | succ n ih =>
    rw [climb_succ, climb_succ, ih]
    cases h : climb up n a with
    | none => rfl
    | some b => exact same n b h

namespace Grounded

theorem ends (h : Grounded up a) : ∃ n, climb up n a = none := by
  induction h with
  | top h => exact ⟨1, by simp [climb, h]⟩
  | step h _ ih =>
    obtain ⟨n, hn⟩ := ih
    exact ⟨n + 1, by simpa [climb, h] using hn⟩

theorem above {n : Nat} (h : Grounded up a) (hn : climb up n a = some b) : Grounded up b := by
  induction n generalizing a with
  | zero =>
    cases hn
    exact h
  | succ n ih =>
    cases h with
    | top h => simp [climb, h] at hn
    | step h rest => exact ih rest (by simpa [climb, h] using hn)

theorem no_return (h : Grounded up a) (n : Nat) : climb up (n + 1) a ≠ some a := by
  intro back
  have round : ∀ k, climb up (k * (n + 1)) a = some a := by
    intro k
    induction k with
    | zero => simp [climb]
    | succ k ih => rw [Nat.succ_mul, climb_add, ih]; exact back
  obtain ⟨m, hm⟩ := h.ends
  have := climb_none_mono hm (Nat.le_mul_of_pos_right m n.succ_pos)
  rw [round m] at this
  cases this

theorem of_agree (agree : ∀ b, Grounded up' b ∨ up' b = up b) (h : Grounded up a) :
    Grounded up' a := by
  induction h with
  | top h => exact (agree _).elim id fun e => .top (e.trans h)
  | step h _ ih => exact (agree _).elim id fun e => .step (e.trans h) ih

theorem of_agree_along (agree : ∀ n b, climb up n a = some b → up' b = up b ∨ up' b = none)
    (h : Grounded up a) : Grounded up' a := by
  induction h with
  | top h => exact (agree 0 _ rfl).elim (fun e => .top (e.trans h)) .top
  | step h _ ih =>
    have rest := ih fun n b hb => agree (n + 1) b (by simpa [climb, h] using hb)
    exact (agree 0 _ rfl).elim (fun e => .step (e.trans h) rest) .top

/-- One step may lead elsewhere, if from there no way leads back to where it is taken. -/
theorem of_relink {x : α} {y : Option α} (old : ∀ a, Grounded up a)
    (apart : ∀ w, y = some w → ∀ n, climb up n w ≠ some x)
    (here : ∀ w, up' x = some w → y = some w)
    (elsewhere : ∀ a, a ≠ x → up' a = up a ∨ up' a = none) (a : α) : Grounded up' a := by
  have there : Grounded up' x := by
    cases h : up' x with
    | none => exact .top h
    | some w =>
      refine .step h ((old w).of_agree_along fun n b hb => elsewhere b ?_)
      rintro rfl
      exact apart w (here w h) n hb
  refine (old a).of_agree fun b => ?_
  by_cases hb : b = x
  · exact .inl (hb ▸ there)
  · exact (elsewhere b hb).elim .inr fun cut => .inl (.top cut)

theorem climb_inj (h : Grounded up a) {m n : Nat} (hm : climb up m a = some b)
    (hn : climb up n a = some b) : m = n := by
  have later {b : α} (hb : Grounded up b) : ∀ {m n}, climb up m a = some b →
      climb up n a = some b → ¬ m < n := by
    intro m n hm hn hlt
    obtain ⟨k, rfl⟩ := Nat.exists_eq_add_of_lt hlt
    rw [Nat.add_assoc, climb_add, hm] at hn
    exact hb.no_return k hn
  have hb : Grounded up b := h.above hm
  exact Nat.le_antisymm (Nat.not_lt.mp (later hb hn hm)) (Nat.not_lt.mp (later hb hm hn))

theorem trail (h : Grounded up a) :
    ∃ path : List α, path.Nodup ∧ (∀ b, b ∈ path → ∃ n, climb up n a = some b) ∧
      climb up path.length a = none := by
  induction h with
  | top h => exact ⟨[_], by simp, by simpa using ⟨0, rfl⟩, by simp [climb, h]⟩
  | @step a b h hb ih =>
    obtain ⟨path, nodup, met, ends⟩ := ih
    have ha : Grounded up a := .step h hb
    refine ⟨a :: path, List.nodup_cons.mpr ⟨fun hmem => ?_, nodup⟩, ?_, ?_⟩
    · obtain ⟨n, hn⟩ := met a hmem
      exact ha.no_return n (by simpa [climb, h] using hn)
    · intro c hc
      rcases List.mem_cons.mp hc with rfl | hc
      · exact ⟨0, rfl⟩
      · obtain ⟨n, hn⟩ := met c hc
        exact ⟨n + 1, by simpa [climb, h] using hn⟩
    · simpa [climb, h] using ends

theorem climb_length {places : List α} (h : Grounded up a) (start : a ∈ places)
    (closed : ∀ b c, up b = some c → c ∈ places) : climb up places.length a = none := by
  obtain ⟨path, nodup, met, ends⟩ := h.trail
  have sub : path ⊆ places := by
    intro b hb
    obtain ⟨n, hn⟩ := met b hb
    cases n with
    | zero => cases hn; exact start
    | succ n =>
      rw [climb_succ] at hn
      obtain ⟨c, _, hc⟩ := Option.bind_eq_some_iff.mp hn
      exact closed c b hc
  -- No place is met twice, so no more are met than there are.
  exact climb_none_mono ends (nodup.length_le_of_subset sub)

theorem summit {n : Nat} (h : climb up n a = none) :
    ∃ m b, m < n ∧ climb up m a = some b ∧ up b = none := by
  induction n with
  | zero => cases h
  | succ n ih =>
    cases hn : climb up n a with
    | none =>
      obtain ⟨m, b, hm, hb⟩ := ih hn
      exact ⟨m, b, Nat.lt_succ_of_lt hm, hb⟩
    | some b =>
      rw [climb_succ, hn] at h
      exact ⟨n, b, Nat.lt_succ_self n, hn, h⟩

end Grounded

/-- The search along the way up finds what so many steps lead past. -/
theorem Store.reaches_iff {up : ElementId → Option ElementId} {goal start : ElementId} {n : Nat} :
    reaches up goal n start ↔ ∃ k, k < n ∧ climb up k start = some goal := by
  induction n generalizing start with
  | zero => simp [reaches]
  | succ n ih =>
    by_cases h : start = goal
    · subst h
      exact iff_of_true (by simp [reaches]) ⟨0, Nat.succ_pos n, rfl⟩
    · cases hs : up start with
      | none =>
        simp only [reaches, h, hs, if_false]
        refine ⟨nofun, ?_⟩
        rintro ⟨k, _, hk⟩
        cases k with
        | zero => exact absurd (Option.some.inj hk) h
        | succ k => simp [climb, hs] at hk
      | some next =>
        simp only [reaches, h, hs, if_false, ih]
        constructor
        · rintro ⟨k, hk, he⟩
          exact ⟨k + 1, Nat.succ_lt_succ hk, by simpa [climb, hs] using he⟩
        · rintro ⟨k, hk, he⟩
          cases k with
          | zero => exact absurd (Option.some.inj he) h
          | succ k => exact ⟨k, Nat.lt_of_succ_lt_succ hk, by simpa [climb, hs] using he⟩

end SharedWorld
