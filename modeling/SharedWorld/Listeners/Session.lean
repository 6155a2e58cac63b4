import SharedWorld.Listeners

/-! Listeners that act on their own registry while they run. Such a listener notes what it hears and
then does one thing more: subscribe, unsubscribe, emit or close. -/
namespace SharedWorld.Listeners

inductive Action
  | subscribe (tag : String) (follow : Option Action)
  -- takes back the subscription made as the `made`-th
  | unsubscribe (made : Nat)
  | emit (value : Int)
  | close (value : Int)
deriving Inhabited

structure Listener where
  tag : String
  follow : Option Action

inductive Answer
  | subscribed (id : Option SubscriptionId)
  | unsubscribed (found : Bool)
  | unknown
  | emitted
  | closed (first : Bool)
deriving DecidableEq

inductive Note
  | heard (tag : String) (value : Int)
  | nested (answer : Answer)
deriving DecidableEq

structure Session where
  registry : Listeners Listener := {}
  made : List SubscriptionId := []
  log : List Note := []

namespace Session

def note (s : Session) (n : Note) : Session := { s with log := s.log ++ [n] }

def deliver (act : Action → Session → Answer × Session) (value : Int) :
    List Listener → Session → Session
  | [], s => s
  | l :: rest, s =>
    let s := s.note (.heard l.tag value)
    let s := match l.follow with
      | none => s
      | some action =>
        let (answer, s) := act action s
        s.note (.nested answer)
    deliver act value rest s

/-- One action. Deliveries inside deliveries go `depth` deep; a deeper one reaches nobody. -/
def perform : (depth : Nat) → Action → Session → Answer × Session
  | _, .subscribe tag follow, s =>
    match s.registry.subscribe ⟨tag, follow⟩ with
    | (some id, registry) => (.subscribed (some id), { s with registry, made := s.made ++ [id] })
    | (none, registry) => (.subscribed none, { s with registry })
  | _, .unsubscribe index, s =>
    match s.made[index]? with
    | none => (.unknown, s)
    | some id =>
      let (found, registry) := s.registry.unsubscribe id
      (.unsubscribed found, { s with registry })
  | 0, .emit _, s => (.emitted, s)
  | depth + 1, .emit value, s =>
    (.emitted, deliver (perform depth) value s.registry.audience s)
  | depth, .close value, s =>
    match s.registry.close with
    | (none, _) => (.closed false, s)
    | (some audience, registry) =>
      let s := { s with registry }
      match depth with
      | 0 => (.closed true, s)
      | depth + 1 => (.closed true, deliver (perform depth) value audience s)

/-- Enough for every chain of deliveries that ends by itself. -/
def depth : Nat := 1000

def step (action : Action) (s : Session) : Answer × Session := s |> perform depth action

end Session
end SharedWorld.Listeners
