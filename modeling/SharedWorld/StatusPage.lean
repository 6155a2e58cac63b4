import SharedWorld.Document
import SharedWorld.Server
import SharedWorld.Text.Percent

/-! The status pages of a server: how it is, how many there are of everything, and where each
element is. Pages can only be looked at. -/
namespace SharedWorld

structure Reply where
  code : Nat
  body : String := ""
deriving DecidableEq

namespace StatusPage

inductive Page
  | health
  | stats
  | element (name : List Char)
deriving DecidableEq

def afterScheme? : List Char → Option (List Char)
  | [] => none
  | c :: rest =>
    match "://".toList.isPrefixOf? (c :: rest) with
    | some rest => some rest
    | none => afterScheme? rest

/-- The path of an address: what comes after scheme and host, if it begins with those, and before a
query or a fragment. -/
def pathOf (address : List Char) : List Char :=
  let located :=
    if address.head? = some '/' then address
    else ((afterScheme? address).getD []).dropWhile fun c => c ≠ '/' ∧ c ≠ '?' ∧ c ≠ '#'
  located.takeWhile fun c => c ≠ '?' ∧ c ≠ '#'

def page? (address : List Char) : Option Page :=
  let path := pathOf address
  if path = "/health".toList then some .health
  else if path = "/stats".toList then some .stats
  else
    match "/elements/".toList.isPrefixOf? path with
    | some name => if name.isEmpty ∨ '/' ∈ name then none else some (.element name)
    | none => none

inductive Fault
  | notText
  | notANumber (name : String)
  | missing (id : ElementId)
deriving DecidableEq

def Fault.reply : Fault → Reply
  | notText => ⟨400, "Invalid URL: Invalid UTF-8 in `id`"⟩
  | notANumber name =>
    let quoted := Text.Quoted.quote name
    ⟨400, s!"Invalid URL: Cannot parse `{quoted}` to a `u32`"⟩
  | missing id => ⟨404, (Document.fields [("error", .text s!"element {id}")]).render⟩

/-- The seconds that the server is up, on a clock that nobody started. -/
def uptime : Document := .count 0

def health (s : Server) : Document := .fields [("status", .text "ok"), ("uptime_secs", uptime),
  ("clients", .count s.clientCount), ("elements", .count s.realm.store.size)]

def queue (q : Queue Parcel) : Document := .fields [("packet", .text q.kind.key),
  ("workers", .count q.workers), ("pending", .count q.pending), ("enqueued", .count q.enqueued),
  ("handled", .count q.handled), ("failed", .count q.failed), ("dropped", .count q.dropped)]

def stats (s : Server) : Document :=
  let types := s.realm.store.countByType.map fun (type, n) => (type.key, Document.count n)
  .fields [("uptime_secs", uptime), ("clients", .count s.clientCount),
    ("elements", .count s.realm.store.size), ("elements_by_type", .fields types),
    ("colshapes", .count s.realm.world.zones.size),
    ("queues", .list (s.dispatcher.queues.map queue)), ("unknown_packets", .count s.unknown),
    ("rate_limited_packets", .count s.rateLimited), ("rejected_packets", .count s.rejected)]

def vector (v : Vec3) : Document :=
  .fields [("x", .decimal v.x), ("y", .decimal v.y), ("z", .decimal v.z)]

def identifier (id : ElementId) : Document := .count id.number.toNat

def element (e : Element) : Document := .fields [("id", identifier e.id),
  ("element_type", .text e.type.key), ("parent", (e.parent.map identifier).getD .null),
  ("position", vector e.position), ("rotation", vector e.rotation)]

def elementId (name : List Char) : Except Fault ElementId :=
  match Text.Percent.decode? (String.ofList name) with
  | none => .error .notText
  | some text =>
    match Decimal.natural? UInt32.size text.toList with
    | none => .error (.notANumber text)
    | some n => .ok ⟨.ofNat n⟩

def elementDocument (s : Server) (name : List Char) : Except Fault Document := do
  let id ← elementId name
  match s.realm.store.find? id with
  | none => throw (.missing id)
  | some e => return element e

def Page.reply (s : Server) : Page → Reply
  | health => ⟨200, (StatusPage.health s).render⟩
  | stats => ⟨200, (StatusPage.stats s).render⟩
  | element name =>
    match elementDocument s name with
    | .ok document => ⟨200, document.render⟩
    | .error fault => fault.reply

/-- Answers a request. To look at a page without its body is the same, less the body. -/
def answer (s : Server) (method address : String) : Reply :=
  match page? address.toList with
  | none => ⟨404, ""⟩
  | some page =>
    if method = "GET" then page.reply s
    else if method = "HEAD" then { page.reply s with body := "" }
    else ⟨405, ""⟩

end StatusPage
end SharedWorld
