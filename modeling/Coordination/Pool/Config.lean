import Coordination.Json.Decode

/-!
The configuration of a worker pool and its JSON form. Boosting is off unless both timeouts are
longer than zero.
-/

namespace Coordination

structure Pool.Config where
  /-- Capacity of the buffer; a buffer always holds at least one item. -/
  queueLength : UInt64 := 20
  /-- Most items of one handler call; a call always takes at least one. -/
  batchLength : UInt64 := 20
  /-- How long a push may stay blocked before it asks for a boost. -/
  blockTimeout : Duration := Duration.zero
  boostTimeout : Duration := Duration.zero
  boostWorkers : UInt64 := 0
  /-- The most workers that boosts may lead to, if there is a limit. -/
  maxWorkers : Option UInt64 := none
  deriving DecidableEq, Repr

namespace Pool.Config

/-- A batch length set by hand is at least one. -/
def withBatchLength (c : Config) (n : UInt64) : Config := { c with batchLength := max n 1 }

def capacity (c : Config) : Nat := max c.queueLength.toNat 1

def fullBatch (c : Config) : Nat := max c.batchLength.toNat 1

theorem fullBatch_pos (c : Config) : 0 < c.fullBatch := by
  simp only [fullBatch]; omega

def fieldNames : List String :=
  ["queue_length", "batch_length", "block_timeout", "boost_timeout", "boost_workers", "max_workers"]

/-- The JSON form; timeouts are whole milliseconds. -/
def toJson (c : Config) : Json :=
  .obj [
    ("queue_length", .nat c.queueLength.toNat),
    ("batch_length", .nat c.batchLength.toNat),
    ("block_timeout", .nat c.blockTimeout.writtenMillis),
    ("boost_timeout", .nat c.boostTimeout.writtenMillis),
    ("boost_workers", .nat c.boostWorkers.toNat),
    ("max_workers", Json.ofOption (fun n => .nat n.toNat) c.maxWorkers)]

open Json.Document in
/-- A configuration from its JSON form. Only the limit may be left out, and only in an object. -/
def ofDocument? (doc : Json.Document) : Option Config := do
  let fields ← fields? .complete fieldNames doc
  match fields with
  | [queueLength, batchLength, block, boost, boostWorkers, maxWorkers] =>
    pure {
      queueLength := ← required word? queueLength
      batchLength := ← required word? batchLength
      blockTimeout := ← required millis? block
      boostTimeout := ← required millis? boost
      boostWorkers := ← required word? boostWorkers
      maxWorkers := (← optional (nullable word?) maxWorkers).join }
  | _ => none

def parse (text : String) : Option Config := (Json.Document.parse text).bind ofDocument?

end Pool.Config

end Coordination
