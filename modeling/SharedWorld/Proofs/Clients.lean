import SharedWorld.Clients
import SharedWorld.Proofs.Table

/-! The registry of clients. Whoever is registered is connected; a client that comes is added to it
under its endpoint, and one that goes is taken out. -/
namespace SharedWorld

def Client.standing (c : Client) : Endpoint × ElementId × Bool := (c.endpoint, c.player, c.connected)

namespace Clients
variable {cs : Clients} {endpoint : Endpoint} {id : ClientId} {c : Client}

theorem find?_enlist (cs : Clients) (c : Client) (endpoint : Endpoint) :
    (cs.enlist c).2.find? endpoint =
      if endpoint = c.endpoint then some (cs.enlist c).1 else cs.find? endpoint :=
  Table.find?_insert ..

theorem get?_enlist_self (cs : Clients) (c : Client) :
    (cs.enlist c).2.get? (cs.enlist c).1 = some c :=
  List.getElem?_concat_length

theorem get?_enlist {new : Client} (known : cs.get? id = some c) :
    (cs.enlist new).2.get? id = some c := by
  have early : id.number < cs.known.length := (List.getElem?_eq_some_iff.mp known).1
  unfold get? enlist
  rwa [List.getElem?_append_left early]

theorem find?_remove (cs : Clients) (endpoint other : Endpoint) :
    (cs.remove endpoint).find? other = if other = endpoint then none else cs.find? other :=
  Table.find?_erase ..

theorem get?_disconnect {other : ClientId} (apart : other ≠ id) (cs : Clients) :
    (cs.disconnect id).2.get? other = cs.get? other := by
  have number : id.number ≠ other.number := fun same => apart (by
    cases other
    cases id
    exact congrArg ClientId.mk same.symm)
  unfold get? disconnect modify
  rw [List.getElem?_modify]
  simp [number]

def player? (cs : Clients) (endpoint : Endpoint) : Option ElementId :=
  ((cs.find? endpoint).bind cs.get?).map (·.player)

/-- Whoever is registered is connected, and registered for its own endpoint. -/
def Present (cs : Clients) : Prop :=
  ∀ endpoint id, cs.find? endpoint = some id →
    ∃ c, cs.get? id = some c ∧ c.endpoint = endpoint ∧ c.connected

theorem player?_of_find? (found : cs.find? endpoint = some id) (known : cs.get? id = some c) :
    cs.player? endpoint = some c.player := by
  simp [player?, found, known]

theorem Present.player?_isSome (ok : cs.Present) (endpoint : Endpoint) :
    (cs.player? endpoint).isSome ↔ (cs.find? endpoint).isSome := by
  cases found : cs.find? endpoint with
  | none => simp [player?, found]
  | some id =>
    obtain ⟨c, known, _⟩ := ok endpoint id found
    simp [player?_of_find? found known]

theorem Present.congr {cs' : Clients} (ok : cs.Present) (registered : cs'.registered = cs.registered)
    (known : ∀ id, (cs'.get? id).map (·.standing) = (cs.get? id).map (·.standing)) :
    cs'.Present ∧ ∀ endpoint, cs'.player? endpoint = cs.player? endpoint := by
  have found (endpoint) : cs'.find? endpoint = cs.find? endpoint := congrArg (·.find? endpoint) registered
  constructor
  · intro endpoint id h
    obtain ⟨c, hc, there, connected⟩ := ok endpoint id ((found endpoint).symm.trans h)
    have same := known id
    rw [hc, Option.map_some, Option.map_eq_some_iff] at same
    obtain ⟨c', hc', same⟩ := same
    simp only [Client.standing, Prod.mk.injEq] at same
    exact ⟨c', hc', same.1.trans there, same.2.2.trans connected⟩
  · intro endpoint
    have players (o : Option Client) : o.map (·.player) = (o.map (·.standing)).map (·.2.1) := by
      cases o <;> rfl
    unfold player?
    rw [found]
    cases cs.find? endpoint with
    | none => rfl
    | some id =>
      simp only [Option.bind_some]
      rw [players, players, known]

theorem Present.enlist (ok : cs.Present) (connected : c.connected) :
    (cs.enlist c).2.Present ∧ ∀ endpoint, (cs.enlist c).2.player? endpoint =
      if endpoint = c.endpoint then some c.player else cs.player? endpoint := by
  constructor
  · intro endpoint id h
    rw [find?_enlist] at h
    split at h
    · next here =>
      cases h
      exact ⟨c, get?_enlist_self cs c, here.symm, connected⟩
    · obtain ⟨c', known, rest⟩ := ok endpoint id h
      exact ⟨c', get?_enlist known, rest⟩
  · intro endpoint
    unfold player?
    rw [find?_enlist]
    split
    · rw [Option.bind_some, get?_enlist_self, Option.map_some]
    · cases h : cs.find? endpoint with
      | none => rfl
      | some id =>
        obtain ⟨c', known, _⟩ := ok endpoint id h
        rw [Option.bind_some, Option.bind_some, get?_enlist known, known]

theorem disconnect_connected (known : cs.get? id = some c) (connected : c.connected) :
    cs.disconnect id = (true, (cs.disconnect id).2) :=
  Prod.ext (by simp [disconnect, isConnected, known, connected]) rfl

theorem Present.leave (ok : cs.Present) (here : cs.find? endpoint = some id) :
    ((cs.disconnect id).2.remove endpoint).Present ∧
      ∀ other, ((cs.disconnect id).2.remove endpoint).player? other =
        if other = endpoint then none else cs.player? other := by
  have found (other) : ((cs.disconnect id).2.remove endpoint).find? other =
      if other = endpoint then none else cs.find? other := find?_remove ..
  -- No other endpoint has this client, as each client has but one endpoint.
  have kept {other id'} (apart : other ≠ endpoint) (h : cs.find? other = some id') :
      ((cs.disconnect id).2.remove endpoint).get? id' = cs.get? id' := by
    refine get?_disconnect (fun same => apart ?_) cs
    obtain ⟨c, known, there, _⟩ := ok endpoint id here
    obtain ⟨c', known', there', _⟩ := ok other id' h
    subst same
    cases known.symm.trans known'
    exact there'.symm.trans there
  constructor
  · intro other id' h
    rw [found] at h
    split at h
    · cases h
    · next apart =>
      rw [kept apart h]
      exact ok other id' h
  · intro other
    unfold player?
    rw [found]
    split
    · rfl
    · next apart =>
      cases h : cs.find? other with
      | none => rfl
      | some id' => rw [Option.bind_some, Option.bind_some, kept apart h]

end Clients

end SharedWorld
