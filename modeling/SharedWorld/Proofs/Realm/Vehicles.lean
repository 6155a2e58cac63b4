import SharedWorld.Proofs.Realm.Run
import SharedWorld.Proofs.World.Chains

/-! Vehicles in a realm, whatever happens in it: those in tow follow one another in chains, and
whoever drives one sits in it. -/
namespace SharedWorld
namespace Store
variable {s : Store}

theorem towedBy?_eq_some {a b : ElementId} : s.towedBy? a = some b ↔ s.Refers .towedBy a b := by
  rw [towedBy?_eq_reference?, reference?_eq_some (by decide)]

theorem vehicle_of_canHold {tie : Tie} {a : ElementId} (held : tie.heldBy = some .vehicle)
    (h : s.CanHold tie a) : ∃ v, s.vehicle a = .ok v := by
  obtain ⟨e, he, type⟩ := h
  have type : e.type = .vehicle := by simpa [held, eq_comm] using type
  cases hk : e.kind with
  | vehicle v => exact ⟨v, vehicle_eq_ok.mpr ⟨e, he, hk⟩⟩
  | _ => simp [Element.type, hk, ElementKind.type] at type

theorem player_of_canHold {a : ElementId} (h : s.CanHold .seat a) : ∃ p, s.player a = .ok p := by
  obtain ⟨e, he, type⟩ := h
  have type : e.type = .player := by simpa [Tie.heldBy, eq_comm] using type
  cases hk : e.kind with
  | player p => exact ⟨p, player_eq_ok.mpr ⟨e, he, hk⟩⟩
  | _ => simp [Element.type, hk, ElementKind.type] at type

/-- The vehicles in tow are chains, apart from one another: both ends of a tow pair know of it, and
the way from tower to tower ends and goes through no vehicle twice. Of two vehicles behind a third
one is behind the other. -/
structure TowChains (s : Store) : Prop where
  paired : ∀ {a b x y}, s.vehicle a = .ok x → s.vehicle b = .ok y →
    (x.towing = some b ↔ y.towedBy = some a)
  trailer : ∀ {a b x}, s.vehicle a = .ok x → x.towing = some b → ∃ y, s.vehicle b = .ok y
  tower : ∀ {a b x}, s.vehicle a = .ok x → x.towedBy = some b → ∃ y, s.vehicle b = .ok y
  ends : ∀ {a}, s.contains a → climb s.towedBy? s.size a = none
  distinct : ∀ {a b m n}, climb s.towedBy? m a = some b → climb s.towedBy? n a = some b → m = n
  line : ∀ {a b c m n}, climb s.towedBy? m a = some c → climb s.towedBy? n b = some c →
    ∃ k, climb s.towedBy? k a = some b ∨ climb s.towedBy? k b = some a

theorem Linked.tower_unique (ok : s.Linked) {a b c : ElementId} (ha : s.towedBy? a = some c)
    (hb : s.towedBy? b = some c) : a = b := by
  have pulls_a : s.Refers .towing c a := ok.towing_iff.mpr (towedBy?_eq_some.mp ha)
  have pulls_b : s.Refers .towing c b := ok.towing_iff.mpr (towedBy?_eq_some.mp hb)
  exact pulls_a.unique pulls_b (by decide)

theorem Linked.towChains (ok : s.Linked) (free : s.Untangled) : s.TowChains := by
  have up (a) : Grounded s.towedBy? a := towedBy?_eq_reference? (s := s) ▸ free .towedBy (.inr rfl) a
  refine ⟨fun {a b x y} hx hy => ?_, fun {a b x} hx hb => ?_, fun {a b x} hx hb => ?_, fun {a} ha => ?_,
    fun hm hn => (up _).climb_inj hm hn, fun {a b c m n} ha hb => ?_⟩
  · have pulls : s.Refers .towing a b ↔ x.towing = some b := refers_of_vehicle hx rfl b
    have pulled : s.Refers .towedBy b a ↔ y.towedBy = some a := refers_of_vehicle hy rfl a
    exact pulls.symm.trans (ok.towing_iff.trans pulled)
  · have pulled := ok.towing_iff.mp ((refers_of_vehicle hx rfl b).mpr hb)
    exact vehicle_of_canHold rfl pulled.canHold
  · have pulls := ok.towing_iff.mpr ((refers_of_vehicle hx rfl b).mpr hb)
    exact vehicle_of_canHold rfl pulls.canHold
  · rw [towedBy?_eq_reference?]
    exact ok.climb_reference (by decide) (by decide) (free .towedBy (.inr rfl) a) ha
  · have behind {a b m n} (h : m ≤ n) (ha : climb s.towedBy? m a = some c)
        (hb : climb s.towedBy? n b = some c) : climb s.towedBy? (n - m) b = some a := by
      rw [← Nat.sub_add_cancel h, climb_add] at hb
      obtain ⟨d, hd, hc⟩ := Option.bind_eq_some_iff.mp hb
      rw [hd, climb_injective ok.tower_unique hc ha]
    rcases Nat.le_total m n with h | h
    · exact ⟨n - m, .inr (behind h ha hb)⟩
    · exact ⟨m - n, .inl (behind h hb ha)⟩

/-- Whoever drives a vehicle is a live player and sits in it: nobody drives two, and nobody drives
who sits in none. -/
structure DriversSeated (s : Store) : Prop where
  seated : ∀ {v p x}, s.vehicle v = .ok x → x.driver = some p →
    ∃ y, s.player p = .ok y ∧ y.vehicle = some v
  one : ∀ {v w p x y}, s.vehicle v = .ok x → s.vehicle w = .ok y → x.driver = some p →
    y.driver = some p → v = w
  idle : ∀ {v p x y}, s.player p = .ok y → y.vehicle = none → s.vehicle v = .ok x →
    x.driver ≠ some p

theorem Linked.driversSeated (ok : s.Linked) : s.DriversSeated := by
  have seat {v p x} (hx : s.vehicle v = .ok x) (hp : x.driver = some p) : s.Refers .seat p v :=
    ok.seat_of_driver ((refers_of_vehicle hx rfl p).mpr hp)
  refine ⟨fun {v p x} hx hp => ?_, fun hx hy hp hq => ?_, fun hp out hx hd => ?_⟩
  · obtain ⟨y, hy⟩ := player_of_canHold (seat hx hp).canHold
    exact ⟨y, hy, (refers_of_player hy v).mp (seat hx hp)⟩
  · exact (seat hx hp).unique (seat hy hq) (by decide)
  · have sits := (refers_of_player hp _).mp (seat hx hd)
    rw [out] at sits
    cases sits

end Store

open Store

namespace Realm
variable (cellSize : Single) (ids : IdSource) (root : ElementId) (ops : List Op)

theorem run_untangled : ((fresh cellSize ids root).run ops).store.Untangled :=
  run_keeps Turn.untangled (untangled_withRoot cellSize ids root) ops

theorem run_towChains : ((fresh cellSize ids root).run ops).store.TowChains :=
  (run_linked cellSize ids root ops).towChains (run_untangled cellSize ids root ops)

theorem run_driversSeated : ((fresh cellSize ids root).run ops).store.DriversSeated :=
  (run_linked cellSize ids root ops).driversSeated

end Realm
end SharedWorld
