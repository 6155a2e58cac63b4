import SharedWorld.Proofs.Wire.Faithful

/-! Readers that know where their value ends. Such a reader takes the same bytes off, whatever comes
behind them; and where the input stops among those bytes, it misses the rest and finds no other fault.
Layouts that are put together from such layouts are such layouts. -/
namespace SharedWorld.Wire
variable {α β : Type}

namespace Reader

/-- The bytes of `front` are read as a value, whatever follows; of a part of them, more is needed than
remains. -/
structure Spells (r : Reader α) (front : List UInt8) (a : α) : Prop where
  whole : ∀ rest, r (front ++ rest) = (.ok a, rest)
  short : ∀ cut, cut <+: front → cut ≠ front → ∃ needed remaining, remaining < needed ∧
    (r cut).1 = .error (.unexpectedEnd needed remaining)

/-- What is read off is spelled by the bytes that are taken. -/
def Delimited (r : Reader α) : Prop :=
  ∀ bytes a rest, r bytes = (.ok a, rest) → ∃ front, bytes = front ++ rest ∧ r.Spells front a

theorem bind_of_error {r : Reader α} {bytes : List UInt8} {e : DecodeError}
    (h : (r bytes).1 = .error e) (f : α → Reader β) : ((r >>= f) bytes).1 = .error e := by
  change (r.bind f bytes).1 = _
  unfold Reader.bind
  split
  · next there =>
    rw [there] at h
    cases h
  · next there =>
    rw [there] at h
    cases h
    rfl

namespace Delimited
variable {r : Reader α} {f : α → Reader β}

protected theorem pure (a : α) : (Reader.pure a).Delimited := by
  intro bytes b rest h
  cases h
  exact ⟨[], rfl, fun _ => rfl, fun cut inside proper => absurd (List.prefix_nil.mp inside) proper⟩

protected theorem fail (e : DecodeError) : (Reader.fail e : Reader α).Delimited := nofun

theorem ofExcept (x : Except DecodeError α) : (Reader.ofExcept x).Delimited := by
  cases x with
  | ok a => exact .pure a
  | error e => exact .fail e

/-- Where the input stops among the bytes of the second reader the first has already read its own. -/
protected theorem bind (first : r.Delimited) (second : ∀ a, (f a).Delimited) :
    (r >>= f).Delimited := by
  intro bytes b rest h
  obtain ⟨a, mid, ha, hb⟩ := bind_eq_ok.mp h
  obtain ⟨front, rfl, spelled⟩ := first _ _ _ ha
  obtain ⟨back, rfl, spelled'⟩ := second a _ _ _ hb
  refine ⟨front ++ back, (List.append_assoc ..).symm, fun more => ?_, fun cut inside proper => ?_⟩
  · rw [List.append_assoc, bind_of_ok (spelled.whole _), spelled'.whole]
  by_cases reached : front <+: cut
  · obtain ⟨cut, rfl⟩ := reached
    rw [bind_of_ok (spelled.whole cut)]
    refine spelled'.short cut ((List.prefix_append_right_inj front).mp inside) ?_
    rintro rfl
    exact proper rfl
  · have early : cut <+: front :=
      (List.prefix_or_prefix_of_prefix inside (List.prefix_append front back)).resolve_right reached
    obtain ⟨needed, remaining, less, missing⟩ := spelled.short cut early fun whole =>
      reached (whole ▸ List.prefix_refl cut)
    exact ⟨needed, remaining, less, bind_of_error missing f⟩

theorem of_length (n : Nat)
    (whole : ∀ bytes a rest, r bytes = (.ok a, rest) →
      ∃ front, bytes = front ++ rest ∧ front.length = n ∧ ∀ more, r (front ++ more) = (.ok a, more))
    (short : ∀ bytes, bytes.length < n → (r bytes).1 = .error (.unexpectedEnd n bytes.length)) :
    r.Delimited := by
  intro bytes a rest h
  obtain ⟨front, split, length, onward⟩ := whole bytes a rest h
  refine ⟨front, split, onward, fun cut inside proper => ?_⟩
  have less : cut.length < n := by
    rw [← length]
    exact Nat.lt_of_le_of_ne inside.length_le fun same => proper (inside.eq_of_length same)
  exact ⟨n, cut.length, less, short cut less⟩

theorem u8 : Reader.u8.Delimited := by
  refine of_length 1 (fun bytes a rest h => ?_) fun bytes less => ?_
  · match bytes, h with
    | b :: bytes, h =>
      cases h
      exact ⟨[a], rfl, rfl, fun _ => rfl⟩
  · match bytes, less with
    | [], _ => rfl

theorem u16 : Reader.u16.Delimited := by
  refine of_length 2 (fun bytes n rest h => ?_) fun bytes less => ?_
  · match bytes, h with
    | a :: b :: bytes, h =>
      cases h
      exact ⟨[a, b], rfl, rfl, fun _ => rfl⟩
    | [_], h => cases h
    | [], h => cases h
  · match bytes, less with
    | [_], _ => rfl
    | [], _ => rfl

theorem u32 : Reader.u32.Delimited := by
  refine of_length 4 (fun bytes n rest h => ?_) fun bytes less => ?_
  · match bytes, h with
    | a :: b :: c :: d :: bytes, h =>
      cases h
      exact ⟨[a, b, c, d], rfl, rfl, fun _ => rfl⟩
    | [_, _, _], h => cases h
    | [_, _], h => cases h
    | [_], h => cases h
    | [], h => cases h
  · match bytes, less with
    | [_, _, _], _ => rfl
    | [_, _], _ => rfl
    | [_], _ => rfl
    | [], _ => rfl

theorem bytes (count : Nat) : (Reader.bytes count).Delimited := by
  refine of_length count (fun input bs rest h => ?_) fun input less => ?_
  · obtain ⟨length, split⟩ := Layout.Faithful.bytes_eq_ok.mp h
    exact ⟨bs, split.symm, length, fun more => Layout.Faithful.bytes_eq_ok.mpr ⟨length, rfl⟩⟩
  · unfold Reader.bytes
    rw [if_pos less]

theorem replicate (h : r.Delimited) (n : Nat) : (r.replicate n).Delimited := by
  induction n with
  | zero => exact .pure []
  | succ n ih => exact h.bind fun a => ih.bind fun as => .pure (a :: as)

end Delimited
end Reader

namespace Layout

abbrev Delimited (layout : Layout α) : Prop := layout.read.Delimited

open Reader

theorem u8_delimited : u8.Delimited := .u8

theorem u16_delimited : u16.Delimited := .u16

theorem u32_delimited : u32.Delimited := .u32

namespace Delimited
variable {layout : Layout α} {second : Layout β}

theorem both (h : layout.Delimited) (h' : second.Delimited) : (layout.both second).Delimited :=
  h.bind fun a => h'.bind fun b => .pure (a, b)

theorem «as» (h : layout.Delimited) (make : α → β) (take : β → α) :
    (layout.as make take).Delimited := h.bind fun a => .pure (make a)

theorem accept (h : layout.Delimited) (make : α → Except DecodeError β) (take : β → α) :
    (layout.accept make take).Delimited := h.bind fun a => .ofExcept (make a)

theorem optional (h : layout.Delimited) (field : String) : (layout.optional field).Delimited := by
  refine (u8_delimited.accept _ _).bind fun there => ?_
  cases there with
  | false => exact .pure none
  | true => exact h.bind fun a => .pure (some a)

theorem counted (h : layout.Delimited) : layout.counted.Delimited :=
  u8_delimited.bind fun count => h.replicate count.toNat

theorem replicate (h : layout.Delimited) (n : Nat) (fill : α) :
    (layout.replicate n fill).Delimited := (Reader.Delimited.replicate h n).bind fun _ => .pure _

end Delimited

theorem limited_delimited (field : String) (limit : Nat) : (limited field limit).Delimited := by
  refine u8_delimited.bind fun count => ?_
  split
  · exact .fail _
  · exact .bytes count.toNat

theorem text_delimited : text.Delimited := by
  refine u16_delimited.bind fun count => (Reader.Delimited.bytes count.toNat).bind fun bs => ?_
  split
  · exact .pure _
  · exact .fail .invalidText

theorem i16_delimited : i16.Delimited := u16_delimited.as _ _

theorem single_delimited : single.Delimited := u32_delimited.as _ _

theorem vec2_delimited : vec2.Delimited := (single_delimited.both single_delimited).as _ _

theorem vec3_delimited : vec3.Delimited :=
  (single_delimited.both (single_delimited.both single_delimited)).as _ _

theorem id_delimited : Layout.id.Delimited := u32_delimited.as _ _

theorem optionalId_delimited : optionalId.Delimited := id_delimited.as _ _

variable {layout : Layout α} {payload : List UInt8} {a : α}

theorem readAll_of_error {e : DecodeError} (h : (layout.read payload).1 = .error e) :
    layout.readAll payload = .error e := bind_of_error h _

/-- A payload that is read, cut anywhere, lacks bytes. -/
theorem Delimited.readAll_cut (h : layout.Delimited) (read : layout.readAll payload = .ok a)
    {cut : List UInt8} (inside : cut <+: payload) (proper : cut ≠ payload) :
    ∃ needed remaining, remaining < needed ∧
      layout.readAll cut = .error (.unexpectedEnd needed remaining) := by
  obtain ⟨front, split, spelled⟩ := h _ _ _ (readAll_eq_ok.mp read)
  rw [List.append_nil] at split
  subst split
  obtain ⟨needed, remaining, less, missing⟩ := spelled.short cut inside proper
  exact ⟨needed, remaining, less, readAll_of_error missing⟩

theorem Delimited.readAll_append (h : layout.Delimited) (read : layout.readAll payload = .ok a)
    {extra : List UInt8} (more : extra ≠ []) :
    layout.readAll (payload ++ extra) = .error (.trailingBytes extra.length) := by
  obtain ⟨front, split, spelled⟩ := h _ _ _ (readAll_eq_ok.mp read)
  rw [List.append_nil] at split
  subst split
  unfold readAll
  rw [bind_of_ok (spelled.whole extra)]
  cases extra with
  | nil => exact absurd rfl more
  | cons b extra => rfl

end Layout
end SharedWorld.Wire
