import SharedWorld.Proofs.Single.Level
import SharedWorld.Proofs.Store.Rewiring

/-! What follows an element that has moved. Everything that hangs on it, directly or through others,
is put where its own target holds it; nothing else stirs. -/
namespace SharedWorld

/-- Where an element stands, and what holds it there. -/
structure Stance where
  position : Vec3
  rotation : Vec3
  attachment : Option Attachment
deriving DecidableEq

def Element.stance (e : Element) : Stance := ⟨e.position, e.rotation, e.attachment⟩

def Element.heldAt (e target : Element) : Element :=
  match e.attachment with
  | some a => Store.placed target a e
  | none => e

theorem Element.heldAt_heldAt (e target : Element) :
    (e.heldAt target).heldAt target = e.heldAt target := by
  cases h : e.attachment <;> simp [heldAt, Store.placed, h]

namespace Store
variable {s t : Store} {top : ElementId}

def stance? (s : Store) (id : ElementId) : Option Stance := (s.find? id).map (·.stance)

/-- An element hangs on another, directly or through others. -/
def Carries (s : Store) (top e : ElementId) : Prop := ∃ n, climb s.target? (n + 1) e = some top

/-- An element stands where its own target holds it. -/
def Follows (s : Store) (id : ElementId) : Prop :=
  ∃ e ∈ s.stance? id, ∃ a ∈ e.attachment, ∃ t ∈ s.stance? a.target,
    e.position = t.position + (Axes.ofRotation t.rotation).apply a.position ∧
      e.rotation = t.rotation + a.rotation

instance (s : Store) (id : ElementId) : Decidable (s.Follows id) :=
  inferInstanceAs (Decidable (∃ _ ∈ _, ∃ _ ∈ _, ∃ _ ∈ _, _))

theorem target?_eq_some {a b : ElementId} : s.target? a = some b ↔ s.Refers .target a b :=
  Option.bind_eq_some_iff

theorem target?_eq (s : Store) (id : ElementId) :
    s.target? id = (s.stance? id).bind fun e => e.attachment.map (·.target) := by
  unfold target? stance?
  cases s.find? id <;> rfl

theorem follows_congr {id : ElementId} (here : t.stance? id = s.stance? id)
    (there : ∀ c, s.target? id = some c → t.stance? c = s.stance? c) :
    t.Follows id ↔ s.Follows id := by
  have targets {e a} (he : e ∈ s.stance? id) (ha : a ∈ e.attachment) :
      t.stance? a.target = s.stance? a.target := by
    refine there _ ?_
    rw [target?_eq, Option.mem_def.mp he]
    simpa using congrArg (Option.map (·.target)) ha
  unfold Follows
  rw [here]
  constructor <;>
  · rintro ⟨e, he, a, ha, x, hx, stands⟩
    refine ⟨e, he, a, ha, x, ?_, stands⟩
    simpa only [targets he ha] using hx

theorem Carries.direct {e c : ElementId} (h : s.target? e = some c) : s.Carries c e :=
  ⟨0, by simpa [climb] using h⟩

theorem Carries.trans {c e : ElementId} (h : s.Carries top c) (h' : s.Carries c e) :
    s.Carries top e := by
  obtain ⟨m, hm⟩ := h
  obtain ⟨n, hn⟩ := h'
  exact ⟨n + 1 + m, by rw [Nat.add_assoc, climb_add, hn]; exact hm⟩

theorem Carries.cases {e : ElementId} (h : s.Carries top e) :
    ∃ c, s.target? e = some c ∧ (c = top ∨ s.Carries top c) := by
  obtain ⟨n, hn⟩ := h
  obtain ⟨c, hc, rest⟩ := Option.bind_eq_some_iff.mp (show (s.target? e).bind _ = _ from hn)
  cases n with
  | zero => exact ⟨c, hc, .inl (Option.some.inj rest)⟩
  | succ n => exact ⟨c, hc, .inr ⟨n, rest⟩⟩

theorem carries_congr (same : ∀ a, t.target? a = s.target? a) (e : ElementId) :
    t.Carries top e ↔ s.Carries top e := by
  unfold Carries
  rw [funext same]

theorem Carries.irrefl (up : Grounded s.target? top) : ¬ s.Carries top top :=
  fun ⟨n, hn⟩ => up.no_return n hn

theorem Carries.contains {e : ElementId} (h : s.Carries top e) : s.contains e := by
  obtain ⟨c, hc, _⟩ := h.cases
  exact (target?_eq_some.mp hc).contains

theorem Quiet.target? (h : Quiet s t) (a : ElementId) : t.target? a = s.target? a := by
  apply Option.ext
  intro b
  rw [target?_eq_some, target?_eq_some, h.refers]

def Noted (s : Store) (id : ElementId) : Prop :=
  ∀ e, s.find? id = some e → e.position.same e.position ∨ e.type = .root ∨
    s.grid.entries.find? id = some ⟨e.position, e.type⟩

theorem noted_congr {id : ElementId} (find : t.find? id = s.find? id)
    (entry : t.grid.entries.find? id = s.grid.entries.find? id) : t.Noted id ↔ s.Noted id := by
  unfold Noted
  rw [find, entry]

theorem update_noted {id : ElementId} {f : Element → Element} (h : s.update id f = .ok t) :
    t.Noted id ∧ ∀ x, x ≠ id → t.grid.entries.find? x = s.grid.entries.find? x := by
  have written := find?_update h id
  unfold update at h
  split at h
  · cases h
  next before hb =>
  rw [if_pos rfl, hb, Option.map_some] at written
  dsimp only at h
  split at h <;> cases h
  · next stays =>
    refine ⟨fun e he => ?_, fun x hx => rfl⟩
    cases he.symm.trans written
    exact stays.imp Vec3.same_self .inl
  · refine ⟨fun e he => .inr (.inr ?_), fun x hx => Table.find?_insert_of_ne _ hx _⟩
    cases he.symm.trans written
    exact Table.find?_insert_self ..

/-- Some elements, all tied to one target, are put to their places. -/
structure Gathered (s : Store) (target : Element) (ids : List ElementId) (t : Store) : Prop where
  find? : ∀ x, t.find? x = if x ∈ ids then (s.find? x).map (·.heldAt target) else s.find? x
  noted : ∀ x ∈ ids, t.Noted x
  entries : ∀ x, x ∉ ids → t.grid.entries.find? x = s.grid.entries.find? x

theorem Gathered.cons {target : Element} {id : ElementId} {ids : List ElementId} {u : Store}
    (first : Gathered s target [id] t) (rest : Gathered t target ids u) :
    Gathered s target (id :: ids) u := by
  refine ⟨fun x => ?_, fun x hx => ?_, fun x hx => ?_⟩
  · rw [rest.find?, first.find?]
    by_cases hx : x = id
    · subst hx
      by_cases hin : x ∈ ids
      · simp [hin, Function.comp_def, Element.heldAt_heldAt]
      · simp [hin]
    · simp [hx]
  · by_cases hin : x ∈ ids
    · exact rest.noted x hin
    · have here : x ∈ [id] := by simpa [hin] using hx
      exact (noted_congr ((rest.find? x).trans (if_neg hin)) (rest.entries x hin)).mpr
        (first.noted x here)
  · rw [List.mem_cons, not_or] at hx
    exact (rest.entries x hx.2).trans (first.entries x (by simpa using hx.1))

theorem follow_of_target (target : Element) {c id : ElementId} (h : s.target? id = some c) :
    ∃ t, s.follow c target id = some t ∧ Gathered s target [id] t := by
  obtain ⟨e, he, hc⟩ := Option.bind_eq_some_iff.mp h
  obtain ⟨a, ha, rfl⟩ := Option.map_eq_some_iff.mp hc
  have granted : ∃ t, s.update id (placed target a) = .ok t := by
    unfold update
    rw [he]
    dsimp only
    split <;> exact ⟨_, rfl⟩
  obtain ⟨t, ht⟩ := granted
  obtain ⟨noted, entries⟩ := update_noted ht
  refine ⟨t, by simp [follow, he, ha, ht, Except.toOption], fun x => ?_, ?_, fun x hx => ?_⟩
  · rw [find?_update ht]
    split
    · next hx => simp [hx, he, Element.heldAt, ha]
    · next hx => simp [hx]
  · exact List.forall_mem_singleton.mpr noted
  · exact entries x (by simpa using hx)

theorem followAll_of_targets (target : Element) {c : ElementId} {ids : List ElementId}
    (h : ∀ id ∈ ids, s.target? id = some c) :
    (s.followAll c target ids).1 = ids ∧ Gathered s target ids (s.followAll c target ids).2 := by
  induction ids generalizing s with
  | nil => exact ⟨rfl, fun x => rfl, nofun, fun x _ => rfl⟩
  | cons id ids ih =>
    obtain ⟨t, ht, first⟩ := follow_of_target target (h id List.mem_cons_self)
    have rest := ih fun x hx =>
      ((follow_quiet ht).target? x).trans (h x (List.mem_cons_of_mem id hx))
    unfold followAll
    rw [ht]
    exact ⟨congrArg (id :: ·) rest.1, first.cons rest.2⟩

theorem follows_of_heldAt {c id : ElementId} {target : Element} (h : s.target? id = some c)
    (moved : t.find? id = (s.find? id).map (·.heldAt target)) (there : t.find? c = some target) :
    t.Follows id := by
  obtain ⟨e, he, hc⟩ := Option.bind_eq_some_iff.mp h
  obtain ⟨a, ha, rfl⟩ := Option.map_eq_some_iff.mp hc
  have stands : t.stance? id = some (placed target a e).stance := by
    simp [stance?, moved, he, Element.heldAt, ha]
  have target_stands : t.stance? a.target = some target.stance := by simp [stance?, there]
  exact ⟨_, stands, a, ha, _, target_stands, rfl, rfl⟩

/-- An element stands where the one that it is tied to holds it; all else about it is as it was. -/
def Held (s : Store) (c x : ElementId) (t : Store) : Prop :=
  ∃ y, t.find? c = some y ∧ t.find? x = (s.find? x).map (·.heldAt y) ∧ t.Noted x

/-- Working off those that wait, until nobody does, comes to this outcome; there is no bound on the
steps. -/
inductive WorksOff : IdSet → List ElementId → Nat → Store → Nat × Store → Prop
  | done {visited : IdSet} {moved : Nat} {s : Store} : WorksOff visited [] moved s (moved, s)
  | again {visited : IdSet} {c : ElementId} {waiting : List ElementId} {moved : Nat} {s : Store}
      {outcome : Nat × Store} (met : visited.contains c)
      (rest : WorksOff visited waiting moved s outcome) :
      WorksOff visited (c :: waiting) moved s outcome
  | gone {visited : IdSet} {c : ElementId} {waiting : List ElementId} {moved : Nat} {s : Store}
      {outcome : Nat × Store} (first : ¬ visited.contains c) (gone : s.find? c = none)
      (rest : WorksOff (visited.add c) waiting moved s outcome) :
      WorksOff visited (c :: waiting) moved s outcome
  | moves {visited : IdSet} {c : ElementId} {waiting : List ElementId} {moved : Nat} {s : Store}
      {outcome : Nat × Store} {e : Element} (first : ¬ visited.contains c)
      (live : s.find? c = some e)
      (rest : WorksOff (visited.add c) ((s.followAll c e e.attached.toList).1.reverse ++ waiting)
        (moved + (s.followAll c e e.attached.toList).1.length)
        (s.followAll c e e.attached.toList).2 outcome) :
      WorksOff visited (c :: waiting) moved s outcome

/-- Midway: the followers of those in `done` are where they belong, and those in `waiting` have
theirs still to come. Who has not been met has not been touched. -/
structure Frontier (s : Store) (top : ElementId) (done waiting : List ElementId) (t : Store) :
    Prop where
  quiet : Quiet s t
  begun : top ∈ done ++ waiting
  fresh : (done ++ waiting).Nodup
  below : ∀ x ∈ done ++ waiting, x = top ∨ s.Carries top x
  reached : ∀ x ∈ done ++ waiting, x = top ∨ ∃ c ∈ done, s.target? x = some c
  closed : ∀ c ∈ done, ∀ x, s.target? x = some c → x ∈ done ++ waiting ∧ Held s c x t
  still : ∀ x, x = top ∨ x ∉ done ++ waiting →
    t.find? x = s.find? x ∧ t.grid.entries.find? x = s.grid.entries.find? x

/-- All that hangs on an element is where its own target holds it; nothing else has stirred. -/
structure Propagated (s : Store) (top : ElementId) (t : Store) : Prop where
  quiet : Quiet s t
  held : ∀ e c, s.Carries top e → s.target? e = some c → Held s c e t
  elsewhere : ∀ e, ¬ s.Carries top e → t.find? e = s.find? e
  entries : ∀ e, ¬ s.Carries top e → t.grid.entries.find? e = s.grid.entries.find? e

theorem Propagated.follows (h : Propagated s top t) (e : ElementId) (carried : s.Carries top e) :
    t.Follows e := by
  obtain ⟨c, hc, _⟩ := carried.cases
  obtain ⟨y, there, placed, _⟩ := h.held e c carried hc
  exact follows_of_heldAt hc placed there

theorem Frontier.start (s : Store) (top : ElementId) : Frontier s top [] [top] s where
  quiet := Quiet.refl s
  begun := List.mem_singleton_self top
  fresh := List.nodup_singleton top
  below _ hx := .inl (List.mem_singleton.mp hx)
  reached _ hx := .inl (List.mem_singleton.mp hx)
  closed _ hc := nomatch hc
  still _ _ := ⟨rfl, rfl⟩

section Frontier
variable {done waiting : List ElementId} {c : ElementId} {e : Element}

theorem Frontier.unmet (h : Frontier s top done (c :: waiting) t) (up : Grounded s.target? top)
    {x : ElementId} (hx : s.target? x = some c) : x ∉ done ++ c :: waiting := by
  intro met
  rcases h.reached x met with rfl | ⟨c', hc', there⟩
  · refine Carries.irrefl up ?_
    rcases h.below c (by simp) with rfl | carried
    · exact .direct hx
    · exact carried.trans (.direct hx)
  · cases hx.symm.trans there
    exact List.disjoint_of_nodup_append h.fresh hc' List.mem_cons_self

theorem Frontier.mem_attached (ok : s.Linked) (h : Frontier s top done waiting t)
    (he : t.find? c = some e) (x : ElementId) : x ∈ e.attached.toList ↔ s.target? x = some c :=
  calc x ∈ e.attached.toList ↔ t.Refers .attached c x := by
        rw [IdSet.mem_toList, refers_of_find? he]
        exact Iff.rfl
    _ ↔ s.Refers .target x c := (h.quiet.refers ..).trans ok.attached_iff
    _ ↔ s.target? x = some c := target?_eq_some.symm

theorem Frontier.not_attached (ok : s.Linked) (up : Grounded s.target? top)
    (h : Frontier s top done (c :: waiting) t) (he : t.find? c = some e) {x : ElementId}
    (met : x ∈ done ++ c :: waiting) : x ∉ e.attached.toList := fun hx =>
  h.unmet up ((h.mem_attached ok he x).mp hx) met

theorem Frontier.gathered (ok : s.Linked) (h : Frontier s top done waiting t)
    (he : t.find? c = some e) :
    (t.followAll c e e.attached.toList).1 = e.attached.toList ∧
      Gathered t e e.attached.toList (t.followAll c e e.attached.toList).2 :=
  followAll_of_targets e fun x hx =>
    (h.quiet.target? x).trans ((h.mem_attached ok he x).mp hx)

theorem perm_onward (done new waiting : List ElementId) (c : ElementId) :
    (c :: done ++ (new.reverse ++ waiting)).Perm (new ++ (done ++ c :: waiting)) := by
  refine List.perm_iff_count.mpr fun x => ?_
  simp only [List.count_append, List.count_cons, List.count_reverse]
  omega

theorem Frontier.advance (ok : s.Linked) (up : Grounded s.target? top)
    (h : Frontier s top done (c :: waiting) t) (he : t.find? c = some e) :
    Frontier s top (c :: done) ((t.followAll c e e.attached.toList).1.reverse ++ waiting)
      (t.followAll c e e.attached.toList).2 := by
  have hc : c = top ∨ s.Carries top c := h.below c (by simp)
  have attached := h.mem_attached ok he
  obtain ⟨moved, gathered⟩ := h.gathered ok he
  have carried {x} (hx : s.target? x = some c) : s.Carries top x :=
    hc.elim (fun here => here ▸ .direct hx) fun above => above.trans (.direct hx)
  have unmet {x} (met : x ∈ done ++ c :: waiting) := h.not_attached ok up he met
  have aside {x} (hx : x ∉ e.attached.toList) :
      (t.followAll c e e.attached.toList).2.find? x = t.find? x :=
    (gathered.find? x).trans (if_neg hx)
  have perm := perm_onward done e.attached.toList waiting c
  have here : c ∈ done ++ c :: waiting := by simp
  have split {x} : x ∈ c :: done ++ (e.attached.toList.reverse ++ waiting) ↔
      s.target? x = some c ∨ x ∈ done ++ c :: waiting := by
    rw [perm.mem_iff, List.mem_append, attached]
  rw [moved]
  refine ⟨h.quiet.trans (followAll_quiet ..), split.mpr (.inr h.begun), ?_, fun x hx => ?_,
    fun x hx => ?_, fun d hd x hx => ?_, fun x hx => ?_⟩
  · rw [perm.nodup_iff, List.nodup_append']
    exact ⟨Table.keys_nodup _, h.fresh, fun x hx met => unmet met hx⟩
  · exact (split.mp hx).elim (fun new => .inr (carried new)) (h.below x)
  · rcases split.mp hx with new | met
    · exact .inr ⟨c, List.mem_cons_self, new⟩
    · refine (h.reached x met).imp_right ?_
      rintro ⟨d, hd, there⟩
      exact ⟨d, List.mem_cons_of_mem c hd, there⟩
  · by_cases hdc : d = c
    · subst hdc
      -- a new one has not been touched until now
      have hin := (attached x).mpr hx
      have before := (h.still x (.inr (h.unmet up hx))).1
      exact ⟨split.mpr (.inl hx), e, (aside (unmet here)).trans he,
        before ▸ (gathered.find? x).trans (if_pos hin), gathered.noted x hin⟩
    · -- an earlier one has been met, so this turn leaves it and its target alone
      have hd : d ∈ done := (List.mem_cons.mp hd).resolve_left hdc
      obtain ⟨met, y, there, placed, noted⟩ := h.closed d hd x hx
      have same := aside (unmet met)
      exact ⟨split.mpr (.inr met), y, (aside (unmet (List.mem_append_left _ hd))).trans there,
        same.trans placed, (noted_congr same (gathered.entries x (unmet met))).mpr noted⟩
  · rw [split, not_or] at hx
    have out : x ∉ e.attached.toList := hx.elim (fun begun => unmet (begun ▸ h.begun))
      fun apart => mt (attached x).mp apart.1
    obtain ⟨find, entries⟩ := h.still x (hx.imp_right And.right)
    exact ⟨(aside out).trans find, (gathered.entries x out).trans entries⟩

theorem Frontier.room (live : s.contains top) (h : Frontier s top done waiting t) :
    done.length ≤ s.size := by
  have keys (b : ElementId) : b ∈ s.residents.keys ↔ s.contains b := Table.mem_keys
  rw [← show s.residents.keys.length = s.size from Table.keys_length _]
  refine (h.fresh.sublist (List.sublist_append_left ..)).length_le_of_subset fun x hx => ?_
  rw [keys]
  rcases h.below x (List.mem_append_left _ hx) with rfl | carried
  · exact live
  · exact carried.contains

theorem Frontier.mem_done (h : Frontier s top done [] t) (e : ElementId) :
    e ∈ done ↔ e = top ∨ s.Carries top e := by
  have begun : top ∈ done := by simpa using h.begun
  refine ⟨fun met => h.below e (by simpa using met), ?_⟩
  rintro (rfl | ⟨n, hn⟩)
  · exact begun
  induction n generalizing e with
  | zero =>
    have there : s.target? e = some top := by simpa [climb_succ, climb] using hn
    simpa using (h.closed top begun e there).1
  | succ n ih =>
    obtain ⟨c, hc, rest⟩ := Option.bind_eq_some_iff.mp (show (s.target? e).bind _ = _ from hn)
    simpa using (h.closed c (ih c rest) e hc).1

theorem Frontier.propagated (h : Frontier s top done [] t) : Propagated s top t := by
  have apart {e} (out : ¬ s.Carries top e) : e = top ∨ e ∉ done ++ [] := by
    rw [List.append_nil, h.mem_done]
    by_cases begun : e = top
    · exact .inl begun
    · exact .inr (not_or.mpr ⟨begun, out⟩)
  refine ⟨h.quiet, fun e c carried hc => ?_, fun e out => (h.still e (apart out)).1,
    fun e out => (h.still e (apart out)).2⟩
  obtain ⟨c', hc', above⟩ := carried.cases
  cases hc.symm.trans hc'
  exact (h.closed c ((h.mem_done c).mpr above) e hc).2

/-- There is a step for every element, so the work is not cut short; and whoever is met, except for the
first, is counted. -/
theorem propagateFrom_worksOff (ok : s.Linked) (up : Grounded s.target? top)
    (live : s.contains top) (n : Nat) (visited : IdSet) (moved : Nat)
    (seen : ∀ x, visited.contains x ↔ x ∈ done) (steps : n + done.length = s.size + 1)
    (count : moved + 1 = (done ++ waiting).length) (h : Frontier s top done waiting t) :
    WorksOff visited waiting moved t (propagateFrom n visited waiting moved t) ∧
      ∃ all, (propagateFrom n visited waiting moved t).1 + 1 = all.length ∧
        Frontier s top all [] (propagateFrom n visited waiting moved t).2 := by
  induction n generalizing visited done waiting moved t with
  | zero =>
    have room := h.room live
    omega
  | succ n ih =>
    cases waiting with
    | nil => exact ⟨.done, done, count.trans (by rw [List.append_nil]), h⟩
    | cons c waiting =>
      have first : ¬ visited.contains c := by
        rw [seen]
        exact fun hd => List.disjoint_of_nodup_append h.fresh hd List.mem_cons_self
      have hc : s.contains c := (h.below c (by simp)).elim (fun here => here ▸ live) (·.contains)
      obtain ⟨e, he⟩ := contains_iff.mp ((h.quiet.contains c).mpr hc)
      unfold propagateFrom
      rw [if_neg first, he]
      have met (x) : (visited.add c).contains x ↔ x ∈ c :: done := by
        rw [List.mem_cons, ← seen]
        exact IdSet.mem_add
      have count : moved + (t.followAll c e e.attached.toList).1.length + 1 =
          (c :: done ++ ((t.followAll c e e.attached.toList).1.reverse ++ waiting)).length := by
        simp only [List.length_append, List.length_cons, List.length_reverse] at count ⊢
        omega
      have steps : n + (c :: done).length = s.size + 1 := by
        rw [List.length_cons]
        omega
      obtain ⟨works, ends⟩ := ih (visited.add c) _ met steps count (h.advance ok up he)
      exact ⟨.moves first he works, ends⟩

end Frontier

theorem propagate_worksOff (ok : s.Linked) (up : Grounded s.target? top) (live : s.contains top) :
    WorksOff .empty [top] 0 s (s.propagate top) ∧
      ∃ all, (s.propagate top).1 + 1 = all.length ∧ Frontier s top all [] (s.propagate top).2 :=
  propagateFrom_worksOff ok up live _ .empty 0 (fun x => by simp [Table.contains]) rfl rfl
    (.start s top)

theorem propagate_propagated (ok : s.Linked) (up : Grounded s.target? top) (live : s.contains top) :
    Propagated s top (s.propagate top).2 := by
  obtain ⟨_, all, _, ends⟩ := propagate_worksOff ok up live
  exact ends.propagated

end Store
end SharedWorld
