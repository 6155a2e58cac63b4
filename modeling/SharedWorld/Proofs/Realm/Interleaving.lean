import SharedWorld.Proofs.Realm.Frame
import SharedWorld.Proofs.Store.Region

/-! Packets of several clients, in one order or another. A packet on foot, on the camera or on the
controls concerns its player and what hangs on it, and nothing else; so, as long as no player hangs on
another, only the order of each client's own packets counts. -/
namespace SharedWorld
namespace Store
variable {region : Set ElementId} {s t s' : Store} {p q x : ElementId}

/-- An element and all that hangs on it. -/
def below (s : Store) (top : ElementId) : Set ElementId := {x | x = top ∨ s.Carries top x}

theorem below_closed (ok : s.Linked) (top : ElementId) : s.Closed (s.below top) := by
  intro c hc e he x hx
  have tied : s.target? x = some c := by
    rw [target?_eq_some]
    exact ok.attached_iff.mp ((refers_of_find? he).mpr (IdSet.mem_toList.mp hx))
  rcases hc with rfl | above
  · exact .inr (.direct tied)
  · exact .inr (above.trans (.direct tied))

/-- Two different elements of which neither hangs on the other. -/
structure Apart (s : Store) (p q : ElementId) : Prop where
  distinct : p ≠ q
  free : ¬ s.Carries p q
  free' : ¬ s.Carries q p

theorem Apart.symm (h : s.Apart p q) : s.Apart q p := ⟨h.distinct.symm, h.free', h.free⟩

theorem Apart.of_untied (distinct : p ≠ q) (free : s.target? p = none) (free' : s.target? q = none) :
    s.Apart p q := by
  have loose {top x} (untied : s.target? x = none) : ¬ s.Carries top x := fun carried => by
    obtain ⟨c, tied, _⟩ := carried.cases
    cases untied.symm.trans tied
  exact ⟨distinct, loose free', loose free⟩

theorem carries_of_climb {m n : Nat} (less : m < n) (hm : climb s.target? m x = some p)
    (hn : climb s.target? n x = some q) : s.Carries q p := by
  obtain ⟨k, rfl⟩ := Nat.exists_eq_add_of_lt less
  rw [Nat.add_assoc, climb_add, hm] at hn
  exact ⟨k, hn⟩

theorem Apart.not_below (h : s.Apart p q) (hx : x ∈ s.below p) : x ∉ s.below q := by
  have climbs {top} (hx : x ∈ s.below top) : ∃ n, climb s.target? n x = some top := by
    rcases hx with rfl | ⟨n, hn⟩
    · exact ⟨0, rfl⟩
    · exact ⟨n + 1, hn⟩
  intro hx'
  obtain ⟨m, hm⟩ := climbs hx
  obtain ⟨n, hn⟩ := climbs hx'
  rcases Nat.lt_trichotomy m n with less | same | more
  · exact h.free' (carries_of_climb less hm hn)
  · subst same
    exact h.distinct (Option.some.inj (hm.symm.trans hn))
  · exact h.free (carries_of_climb more hn hm)

section Agree
variable (h : Agree region s s')
include h

theorem Agree.resolve (wanted : Option ElementId) : s'.resolve wanted = s.resolve wanted := by
  unfold Store.resolve
  simp only [h.contains]

theorem Agree.after {answer answer' : Except WorldError Store}
    (done : (∃ e, answer = .error e ∧ answer' = .error e) ∨
      ∃ t t', answer = .ok t ∧ answer' = .ok t' ∧ Parallel region s s' t t') :
    Parallel region s s' (s.after answer) (s'.after answer') := by
  rcases done with ⟨e, rfl, rfl⟩ | ⟨t, t', rfl, rfl, parallel⟩
  · exact .refl h
  · exact parallel

theorem Agree.updatePlayer (inside : p ∈ region) (state : Player → Player)
    (transform : Element → Element) :
    (∃ e, s.updatePlayer p state transform = .error e ∧
        s'.updatePlayer p state transform = .error e) ∨
      ∃ t t', s.updatePlayer p state transform = .ok t ∧
        s'.updatePlayer p state transform = .ok t' ∧ Parallel region s s' t t' := by
  have known : s'.player p = s.player p := by
    unfold Store.player
    rw [h.find? inside]
  unfold Store.updatePlayer
  rw [known]
  cases s.player p with
  | error e => exact .inl ⟨e, rfl, rfl⟩
  | ok _ => exact h.update inside _

end Agree
end Store

open Store

namespace Realm
variable {region : Set ElementId} {r r' : Realm} {sender : Client}

section Parallel
variable (h : Agree region r.store r'.store)
include h

theorem takeAs_parallel {α : Type} [Packet α]
    {handle : Realm → Client → α → Except WorldError Unit × Realm}
    (handled : ∀ packet, Parallel region r.store r'.store (handle r sender packet).2.store
      (handle r' sender packet).2.store) (payload : List UInt8) :
    Parallel region r.store r'.store (takeAs handle r sender payload).2.store
      (takeAs handle r' sender payload).2.store := by
  rcases takeAs_cases handle r sender payload with ⟨unread, done⟩ | ⟨packet, read, done⟩ <;>
  rcases takeAs_cases handle r' sender payload with ⟨unread', done'⟩ | ⟨packet', read', done'⟩
  · rw [done, done']
    exact .refl h
  · rw [read'] at unread
    cases unread
  · rw [read] at unread'
    cases unread'
  · cases read.symm.trans read'
    rw [done, done']
    exact handled packet

variable (inside : sender.player ∈ region)
include inside

theorem handleCamera_parallel (packet : CameraSync) :
    Parallel region r.store r'.store (r.handleCamera sender packet).2.store
      (r'.handleCamera sender packet).2.store := by
  have shown : shownCamera r'.store packet = shownCamera r.store packet := by
    unfold shownCamera
    split
    · rfl
    · rw [h.resolve]
  rw [handleCamera_store, handleCamera_store, shown]
  exact h.after (h.updatePlayer inside _ _)

theorem handlePlayer_parallel (closed : r.store.Closed region) (packet : PlayerSync) :
    Parallel region r.store r'.store (r.handlePlayer sender packet).2.store
      (r'.handlePlayer sender packet).2.store := by
  rw [handlePlayer_store, handlePlayer_store, h.resolve]
  refine h.after ?_
  rcases h.updatePlayer inside (onFootState packet (r.store.resolve packet.contact))
    (onFootTransform packet) with ⟨e, refused, refused'⟩ | ⟨t, t', written, written', parallel⟩
  · exact .inl ⟨e, by rw [refused]; rfl, by rw [refused']; rfl⟩
  · have still : t.Closed region :=
      closed.of_bonds (update_bonds (onFoot_bonds packet _) (updatePlayer_update written))
    exact .inr ⟨_, _, by rw [written]; rfl, by rw [written']; rfl,
      parallel.trans (parallel.agree.propagate still inside)⟩

/-- Where two realms agree on a region, a packet of a player in it does the same to both, and nothing
outside of the region, if what hangs on the player is in it as well. -/
theorem take_parallel (closed : r.store.Closed region) {kind : PacketKind}
    (onFoot : kind ≠ .vehiclePureSync) (payload : List UInt8) :
    Parallel region r.store r'.store (r.take kind sender payload).2.store
      (r'.take kind sender payload).2.store := by
  have idle : Parallel region r.store r'.store r.store r'.store := .refl h
  unfold take
  split
  · exact idle
  cases kind with
  | playerPureSync => exact takeAs_parallel h (handlePlayer_parallel h inside closed) payload
  | vehiclePureSync => exact absurd rfl onFoot
  | playerKeySync => exact takeAs_parallel h (fun _ => idle) payload
  | cameraSync => exact takeAs_parallel h (handleCamera_parallel h inside) payload
  | command =>
    refine takeAs_parallel h (fun packet => ?_) payload
    rw [handleCommand_store, handleCommand_store]
    exact idle
  | _ => exact idle

end Parallel

structure Letter where
  kind : PacketKind
  sender : Client
  payload : List UInt8
deriving DecidableEq

def Letter.player (l : Letter) : ElementId := l.sender.player

def post (r : Realm) (l : Letter) : Realm := (r.take l.kind l.sender l.payload).2

def postAll (r : Realm) (letters : List Letter) : Realm := letters.foldl post r

theorem post_bonds (r : Realm) (l : Letter) (a : ElementId) :
    (r.post l).store.bonds? a = r.store.bonds? a := take_bonds l.kind r l.sender l.payload a

/-- Two letters about one player, or about two that are apart. -/
def Letter.Compatible (s : Store) (a b : Letter) : Prop :=
  a.player = b.player ∨ s.Apart a.player b.player

section Letters
variable {s : Store} (closed : ∀ top, s.Closed (s.below top)) {l : Letter} {letters : List Letter}
include closed

theorem post_parallel (bonds : ∀ a, r.store.bonds? a = s.bonds? a)
    (onFoot : l.kind ≠ .vehiclePureSync) (h : Agree (s.below l.player) r.store r'.store) :
    Parallel (s.below l.player) r.store r'.store (r.post l).store (r'.post l).store :=
  take_parallel h (.inl rfl) ((closed l.player).of_bonds bonds) onFoot l.payload

theorem postAll_aside (bonds : ∀ a, r.store.bonds? a = s.bonds? a)
    (onFoot : ∀ l ∈ letters, l.kind ≠ .vehiclePureSync) (region : Set ElementId)
    (apart : ∀ l ∈ letters, ∀ x ∈ region, x ∉ s.below l.player) :
    Agree region r.store (r.postAll letters).store := by
  induction letters generalizing r with
  | nil => exact .refl region r.store
  | cons l letters ih =>
    have first := post_parallel closed bonds (onFoot l List.mem_cons_self) (.refl _ r.store)
    refine (first.here.mono (apart l List.mem_cons_self)).trans ?_
    exact ih (fun a => (post_bonds r l a).trans (bonds a))
      (fun l hl => onFoot l (List.mem_cons_of_mem _ hl))
      fun l hl => apart l (List.mem_cons_of_mem _ hl)

theorem postAll_own {player : ElementId} (bonds : ∀ a, r.store.bonds? a = s.bonds? a)
    (onFoot : ∀ l ∈ letters, l.kind ≠ .vehiclePureSync)
    (apart : ∀ l ∈ letters, l.player = player ∨ s.Apart l.player player)
    (h : Agree (s.below player) r.store r'.store) :
    Agree (s.below player) (r.postAll letters).store
      (r'.postAll (letters.filter (·.player = player))).store := by
  induction letters generalizing r r' with
  | nil => exact h
  | cons l letters ih =>
    have first := onFoot l List.mem_cons_self
    have bonds' (a) : (r.post l).store.bonds? a = s.bonds? a := (post_bonds r l a).trans (bonds a)
    by_cases own : l.player = player
    · subst own
      rw [List.filter_cons_of_pos (by simp)]
      exact ih bonds' (fun l hl => onFoot l (List.mem_cons_of_mem _ hl))
        (fun l hl => apart l (List.mem_cons_of_mem _ hl))
        (post_parallel closed bonds first h).agree
    · have away := (apart l List.mem_cons_self).resolve_left own
      rw [List.filter_cons_of_neg (by simpa using own)]
      refine ih bonds' (fun l hl => onFoot l (List.mem_cons_of_mem _ hl))
        (fun l hl => apart l (List.mem_cons_of_mem _ hl)) (.trans ?_ h)
      exact ((post_parallel closed bonds first (.refl _ r.store)).here.mono fun x hx =>
        away.symm.not_below hx).symm

end Letters

theorem postAll_same (closed : ∀ top, r.store.Closed (r.store.below top)) {ls ms : List Letter}
    (onFoot : ∀ l ∈ ls, l.kind ≠ .vehiclePureSync)
    (apart : ∀ a ∈ ls, ∀ b ∈ ls, Letter.Compatible r.store a b)
    (order : ∀ player, ls.filter (·.player = player) = ms.filter (·.player = player)) :
    Same (r.postAll ls).store (r.postAll ms).store := by
  have sent {l} (hl : l ∈ ms) : l ∈ ls := by
    have mine : l ∈ ms.filter (·.player = l.player) := List.mem_filter.mpr ⟨hl, by simp⟩
    rw [← order] at mine
    exact (List.mem_filter.mp mine).1
  refine Agree.same (.of_points fun x => ?_)
  by_cases concerned : ∃ l ∈ ls, x ∈ r.store.below l.player
  · obtain ⟨l, hl, hx⟩ := concerned
    have first := postAll_own closed (fun _ => rfl) onFoot (fun a ha => apart a ha l hl)
      (.refl _ r.store)
    have second := postAll_own closed (fun _ => rfl) (fun a ha => onFoot a (sent ha))
      (fun a ha => apart a (sent ha) l hl) (.refl _ r.store)
    rw [order] at first
    exact (first.trans second.symm).mono fun _ here => here ▸ hx
  · have away : ∀ l ∈ ls, ∀ y ∈ ({x} : Set ElementId), y ∉ r.store.below l.player := by
      rintro l hl _ rfl hx
      exact concerned ⟨l, hl, hx⟩
    exact (postAll_aside closed (fun _ => rfl) onFoot {x} away).symm.trans
      (postAll_aside closed (fun _ => rfl) (fun l hl => onFoot l (sent hl)) {x}
        fun l hl => away l (sent hl))

/-- In every state, two letters about players of which neither hangs on the other come to the same in
either order, unless they are about a vehicle; and so do any number of them in any order that is the
same for each player. -/
theorem run_orders (cellSize : Single) (ids : IdSource) (root : ElementId) (ops : List Op) :
    let r := (fresh cellSize ids root).run ops
    (∀ a b : Letter, a.kind ≠ .vehiclePureSync → b.kind ≠ .vehiclePureSync →
      r.store.Apart a.player b.player →
        Same ((r.post a).post b).store ((r.post b).post a).store) ∧
    ∀ ls ms : List Letter, (∀ l ∈ ls, l.kind ≠ .vehiclePureSync) →
      (∀ a ∈ ls, ∀ b ∈ ls, Letter.Compatible r.store a b) →
      (∀ player, ls.filter (·.player = player) = ms.filter (·.player = player)) →
        Same (r.postAll ls).store (r.postAll ms).store := by
  intro r
  have closed (top) : r.store.Closed (r.store.below top) :=
    below_closed (run_linked cellSize ids root ops) top
  refine ⟨fun a b ha hb apart => ?_, fun ls ms => postAll_same closed⟩
  show Same (r.postAll [a, b]).store (r.postAll [b, a]).store
  refine postAll_same closed ?_ ?_ fun player => ?_
  · simp [ha, hb]
  · simp [Letter.Compatible, apart, apart.symm]
  · by_cases own : a.player = player
    · have other : b.player ≠ player := fun same => apart.distinct (own.trans same.symm)
      simp [own, other]
    · simp [List.filter_cons, own]

def porters : List Op :=
  [.world (.store (.insert { kind := .player { endpoint := ⟨1⟩ } })),
    .world (.store (.insert { kind := .player { endpoint := ⟨2⟩ } })),
    .world (.store (.insert { kind := .object 1 })),
    .world (.store (.attach ⟨3⟩ ⟨1⟩ ⟨.one, .zero, .zero⟩ .zero))]

def strideOf (player : ElementId) (packet : PlayerSync) : Letter where
  kind := .playerPureSync
  sender := { endpoint := ⟨7⟩, player }
  payload := Packet.write packet

theorem porters_orders :
    let r := (fresh Grid.defaultCellSize (.counter 1) ⟨0⟩).run porters
    let ahead := strideOf ⟨1⟩ { position := ⟨.one, .zero, .zero⟩ }
    let on := strideOf ⟨1⟩ { position := ⟨.one, .one, .zero⟩ }
    let back := strideOf ⟨2⟩ { position := ⟨.zero, .one, .zero⟩, contact := some ⟨3⟩ }
    r.store.Carries ⟨1⟩ ⟨3⟩ ∧ (r.post on).store.stance? ⟨3⟩ ≠ r.store.stance? ⟨3⟩ ∧
      Same ((r.post on).post back).store ((r.post back).post on).store ∧
      Same (r.postAll [ahead, on, back]).store (r.postAll [back, ahead, on]).store := by
  intro r ahead on back
  have apart : r.store.Apart ⟨1⟩ ⟨2⟩ :=
    .of_untied (by decide) (by decide +kernel) (by decide +kernel)
  have about (player packet) : (strideOf player packet).player = player := rfl
  have onFoot (player packet) : (strideOf player packet).kind ≠ .vehiclePureSync := nofun
  have compatible : ∀ a ∈ [ahead, on, back], ∀ b ∈ [ahead, on, back],
      Letter.Compatible r.store a b := by
    simp [Letter.Compatible, about, ahead, on, back, apart, apart.symm]
  have orders := run_orders Grid.defaultCellSize (.counter 1) ⟨0⟩ porters
  refine ⟨⟨0, by decide +kernel⟩, by decide +kernel,
    orders.1 on back (onFoot _ _) (onFoot _ _) apart,
    orders.2 [ahead, on, back] [back, ahead, on] ?_ compatible fun player => ?_⟩
  · simp [onFoot, ahead, on, back]
  · by_cases first : ⟨1⟩ = player
    · subst first
      simp [about, ahead, on, back]
    · by_cases second : ⟨2⟩ = player <;> simp [about, ahead, on, back, first, second]

end Realm
end SharedWorld
