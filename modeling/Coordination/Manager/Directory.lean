import Coordination.Json.Basic
import Coordination.Text.Quoted
import Coordination.Boost
import Coordination.Manager.Batches

/-!
The manager: a directory of queue records under numbers that are given out in order and never
again, and the snapshots it shows of them.
-/

namespace Coordination.Manager

structure Record where
  id : Nat
  name : String
  /-- Tag of the backend. -/
  kind : String
  /-- Name of the kind of items that the queue accepts. -/
  exemplar : String
  configuration : Json
  deriving Repr

/-- A queue to be recorded. -/
structure Application where
  /-- The name wished for; without one the record is named after its number. -/
  name : Option String
  kind : String
  exemplar : String
  configuration : Json

/-- The records, and how many there have been. -/
structure Directory where
  /-- The last number given out. -/
  counter : Nat := 0
  /-- The records, in whatever order they are kept in. -/
  records : List Record := []
  deriving Repr

/-- The name of a record: the one wished for, or one made from its number. -/
def recordName (id : Nat) (wished : Option String) : String :=
  match wished with
  | some name => if name = "" then generated else name
  | none => generated
where
  /-- The name made from a number. -/
  generated : String := "queue-" ++ String.ofList (Nat.toDigits 10 id)

namespace Directory

def add (d : Directory) (a : Application) : Directory × Record :=
  let id := d.counter + 1
  let record : Record := ⟨id, recordName id a.name, a.kind, a.exemplar, a.configuration⟩
  ({ counter := id, records := d.records ++ [record] }, record)

def get? (d : Directory) (id : Nat) : Option Record := d.records.find? fun r => r.id = id

def remove (d : Directory) (id : Nat) : Directory × Option Record :=
  ({ d with records := d.records.filter fun r => r.id ≠ id }, d.get? id)

/-- The records in the order of their numbers. -/
def queues (d : Directory) : List Record := d.records.mergeSort fun r s => r.id ≤ s.id

/-- A listed record of a name; which one of several is left to the order they are kept in. -/
def findByName? (d : Directory) (name : String) : Option Record :=
  d.records.find? fun r => r.name = name

def size (d : Directory) : Nat := d.records.length

def isEmpty (d : Directory) : Bool := d.records.isEmpty

def describe (d : Directory) : String :=
  "Manager \x7b queues: " ++ String.ofList (Nat.toDigits 10 d.size) ++ " \x7d"

end Directory

def Record.describe (r : Record) : String :=
  "ManagedQueue \x7b id: " ++ String.ofList (Nat.toDigits 10 r.id) ++ ", name: " ++
    Text.quoted r.name ++ ", queue_type: " ++ Text.quoted r.kind ++ ", exemplar: " ++
    Text.quoted r.exemplar ++ " \x7d"

structure Snapshot where
  phase : Boost.Phase
  pending : Int
  workers : Nat
  maxWorkers : Option Nat
  boostWorkers : Nat
  blockTimeout : Duration
  boostTimeout : Duration
  deriving DecidableEq, Repr

/-- What is shown of a batch, without its token. -/
structure BatchInfo where
  id : Nat
  count : Nat
  lifetime : Option Duration
  flusher : Bool
  deriving DecidableEq, Repr

def Batch.info {τ : Type} (b : Batch τ) : BatchInfo := ⟨b.id, b.count, b.lifetime, b.flusher⟩

structure Summary where
  record : Record
  pool : Snapshot
  workerNumber : Nat
  workers : List BatchInfo

/-- The summary of a record, given what its pool shows and which batches it knows of. There is none
if the sum of the workers outgrows its word. -/
def Record.summary {τ : Type} (r : Record) (pool : Snapshot) (table : BatchTable τ) :
    Option Summary := do
  let workers := table.workers.map Batch.info
  let workerNumber ← wordSum? (workers.map BatchInfo.count)
  pure { record := r, pool, workerNumber, workers }

/-- The JSON form of a batch; of its stamps only the time between them is written. -/
def BatchInfo.toJson (b : BatchInfo) : Json :=
  .obj [
    ("id", .nat b.id),
    ("count", .nat b.count),
    ("life_ms", Json.ofOption (fun d => .nat d.millis) b.lifetime),
    ("is_flusher", .bool b.flusher)]

/-- The JSON form of a summary; timeouts are whole milliseconds. -/
def Summary.toJson (s : Summary) : Json :=
  .obj [
    ("id", .nat s.record.id),
    ("name", .str s.record.name),
    ("type", .str s.record.kind),
    ("configuration", s.record.configuration),
    ("exemplar", .str s.record.exemplar),
    ("phase", .str s.pool.phase.name),
    ("pending", .int s.pool.pending),
    ("number_of_workers", .nat s.pool.workers),
    ("max_number_of_workers", Json.ofOption .nat s.pool.maxWorkers),
    ("boost_workers", .nat s.pool.boostWorkers),
    ("block_timeout", .nat s.pool.blockTimeout.writtenMillis),
    ("boost_timeout", .nat s.pool.boostTimeout.writtenMillis),
    ("worker_number", .nat s.workerNumber),
    ("workers", .arr (s.workers.map BatchInfo.toJson))]

/-- Summaries of all listed queues, given what to show of each. -/
def Directory.summaries {τ : Type} (d : Directory) (view : Record → Snapshot × BatchTable τ) :
    Option (List Summary) :=
  d.queues.mapM fun r => r.summary (view r).1 (view r).2

end Coordination.Manager
