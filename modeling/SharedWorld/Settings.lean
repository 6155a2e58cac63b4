import SharedWorld.Allowance
import SharedWorld.Decimal.Reading
import SharedWorld.Decimal.Style
import SharedWorld.Queue
import SharedWorld.Settings.Address
import SharedWorld.Text.Blank
import SharedWorld.Text.Quoted

/-! The settings of a server, from any source of named texts. What is not set keeps its default; the
first text that cannot be read, or else the first value out of range, is refused. -/
namespace SharedWorld

structure Settings where
  statusAddress : SocketAddress := .v4 [0, 0, 0, 0] 8080
  udpAddress : SocketAddress := .v4 [0, 0, 0, 0] 22003
  logLevel : String := "info"
  syncSleepMillis : Nat := 10
  syncWorkers : Nat := 4
  syncCapacity : Nat := 4096
  syncBatch : Nat := 64
  handlerBudgetMillis : Nat := 5
  commandWorkers : Nat := 1
  collisionMillis : Nat := 100
  cellSize : Single := ⟨0x42480000⟩
  inboundRate : Nat := Allowance.defaultRate

inductive SettingsError
  | invalid (key value : String)
deriving DecidableEq

def SettingsError.message : SettingsError → String
  | invalid key value =>
    let quoted := Text.Quoted.quote value
    s!"Invalid value for {key}: {quoted}"

namespace Settings

/-- Numbers in a refusal: no exponent, and no fraction unless there is one; a tie goes away from
zero. -/
def plainNumber : Decimal.Style where
  tie := .upward
  pointAbove := none
  pointUpTo := none
  keepsFraction := false
  marksPlus := false
  infinity := "inf"
  notANumber := "NaN"

def field {α : Type} (lookup : String → Option String) (read : List Char → Option α) (key : String)
    (fallback : α) : Except SettingsError α :=
  match lookup key with
  | none => .ok fallback
  | some raw =>
    match read (Text.Blank.trim raw.toList) with
    | some a => .ok a
    | none => .error (.invalid key raw)

/-- The address of the status page; a port alone takes precedence. -/
def statusAddressOf (lookup : String → Option String) (fallback : SocketAddress) :
    Except SettingsError SocketAddress :=
  match lookup "PORT" with
  | some raw =>
    match SocketAddress.parse? ("0.0.0.0:".toList ++ Text.Blank.trim raw.toList) with
    | some address => .ok address
    | none => .error (.invalid "PORT" raw)
  | none => field lookup SocketAddress.parse? "STATUS_ADDR" fallback

def word64 : List Char → Option Nat := Decimal.natural? UInt64.size

def word32 : List Char → Option Nat := Decimal.natural? UInt32.size

def read (lookup : String → Option String) : Except SettingsError Settings := do
  let d : Settings := {}
  return {
    statusAddress := ← statusAddressOf lookup d.statusAddress
    udpAddress := ← field lookup SocketAddress.parse? "UDP_ADDR" d.udpAddress
    logLevel := (lookup "LOG_LEVEL").getD d.logLevel
    syncSleepMillis := ← field lookup word64 "SYNC_SLEEP_INTERVAL_MS" d.syncSleepMillis
    syncWorkers := ← field lookup word64 "SYNC_WORKER_COUNT" d.syncWorkers
    syncCapacity := ← field lookup word64 "SYNC_QUEUE_CAPACITY" d.syncCapacity
    syncBatch := ← field lookup word64 "SYNC_BATCH_SIZE" d.syncBatch
    handlerBudgetMillis := ← field lookup word64 "HANDLER_BUDGET_MS" d.handlerBudgetMillis
    commandWorkers := ← field lookup word64 "COMMAND_WORKER_COUNT" d.commandWorkers
    collisionMillis := ← field lookup word64 "COLLISION_INTERVAL_MS" d.collisionMillis
    cellSize := ← field lookup Decimal.single? "SPATIAL_CELL_SIZE" d.cellSize
    inboundRate := ← field lookup word32 "INBOUND_PACKET_RATE" d.inboundRate }

def counts (s : Settings) : List (String × Nat) :=
  [("SYNC_WORKER_COUNT", s.syncWorkers), ("SYNC_QUEUE_CAPACITY", s.syncCapacity),
    ("SYNC_BATCH_SIZE", s.syncBatch), ("COMMAND_WORKER_COUNT", s.commandWorkers),
    ("COLLISION_INTERVAL_MS", s.collisionMillis), ("INBOUND_PACKET_RATE", s.inboundRate)]

def validate (s : Settings) : Except SettingsError Unit :=
  match s.counts.find? (fun c => c.2 = 0) with
  | some (key, _) => .error (.invalid key "0")
  | none =>
    if s.cellSize.isFinite ∧ Single.zero < s.cellSize then .ok ()
    else .error (.invalid "SPATIAL_CELL_SIZE" (plainNumber.render s.cellSize))

def ofLookup (lookup : String → Option String) : Except SettingsError Settings := do
  let s ← read lookup
  s.validate
  return s

def syncQueue (s : Settings) : QueueConfig where
  sleepMillis := s.syncSleepMillis
  workers := s.syncWorkers
  capacity := s.syncCapacity
  batch := s.syncBatch
  budgetMillis := s.handlerBudgetMillis

def commandQueue (s : Settings) : QueueConfig := { s.syncQueue with workers := s.commandWorkers }

end Settings
end SharedWorld
