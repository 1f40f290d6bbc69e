import Coordination.Settings.Basic
import Coordination.Environment

/-!
Partial settings. Both front ends, JSON and the environment, say which fields they set; what they
do not set comes from the settings underneath. So every rule about precedence is a rule about
`Settings.layer`.
-/

namespace Coordination

/-- A value for some of the fields of settings. -/
structure Overlay where
  kind : Option String := none
  name : Option String := none
  length : Option UInt64 := none
  batchLength : Option UInt64 := none
  boostWorkers : Option UInt64 := none
  maxWorkers : Option Int64 := none
  workers : Option UInt64 := none
  blockTimeout : Option Duration := none
  boostTimeout : Option Duration := none
  deriving DecidableEq, Repr

/-- Each field from the overlay if it sets it, and from the settings underneath otherwise. -/
def Settings.layer (s : Settings) (o : Overlay) : Settings where
  kind := o.kind.getD s.kind
  name := o.name.getD s.name
  length := o.length.getD s.length
  batchLength := o.batchLength.getD s.batchLength
  boostWorkers := o.boostWorkers.getD s.boostWorkers
  maxWorkers := o.maxWorkers.getD s.maxWorkers
  workers := o.workers.getD s.workers
  blockTimeout := o.blockTimeout.getD s.blockTimeout
  boostTimeout := o.boostTimeout.getD s.boostTimeout

namespace Overlay

def fieldNames : List String :=
  ["type", "name", "length", "batch_length", "boost_workers", "max_workers", "workers",
    "block_timeout", "boost_timeout"]

open Json.Document in
def ofFields? : List (Option Json.Document) → Option Overlay
  | [kind, name, length, batchLength, boostWorkers, maxWorkers, workers, block, boost] => do
    pure {
      kind := ← optional string? kind
      name := ← optional string? name
      length := ← optional word? length
      batchLength := ← optional word? batchLength
      boostWorkers := ← optional word? boostWorkers
      maxWorkers := ← optional signedWord? maxWorkers
      workers := ← optional word? workers
      blockTimeout := ← optional millis? block
      boostTimeout := ← optional millis? boost }
  | _ => none

def ofDocument? (doc : Json.Document) : Option Overlay :=
  (doc.fields? .open fieldNames).bind ofFields?

/-- The overlay that the members of a queue entry set; of a repeated key the last counts. -/
def ofMembers? (members : List (String × Json.Document)) : Option Overlay :=
  ofFields? (fieldNames.map fun n => Json.Document.last? n members)

/-- The variable for a field of the queue that is addressed as `address`. -/
def variableName (address field : String) : String := "QUEUE_" ++ address ++ "_" ++ field

/-- The overlay that the variables of one queue set. The fields are read in this order, and the
first invalid one is reported. -/
def ofEnvironment (env : Environment) (address : String) : Except SettingsError Overlay := do
  let kind := env (variableName address "TYPE")
  let length ← env.word (variableName address "LENGTH")
  let batchLength ← env.word (variableName address "BATCH_LENGTH")
  let boostWorkers ← env.word (variableName address "BOOST_WORKERS")
  let maxWorkers ← env.signedWord (variableName address "MAX_WORKERS")
  let workers ← env.word (variableName address "WORKERS")
  let blockTimeout ← env.millis (variableName address "BLOCK_TIMEOUT_MS")
  let boostTimeout ← env.millis (variableName address "BOOST_TIMEOUT_MS")
  pure { kind, length, batchLength, boostWorkers, maxWorkers, workers, blockTimeout, boostTimeout }

end Overlay

namespace Settings

/-- Settings from a document, over the built-in ones. -/
def ofDocument? (doc : Json.Document) : Option Settings :=
  (Overlay.ofDocument? doc).map builtIn.layer

/-- Settings from the members of an object, over the built-in ones; of a repeated key the last
counts. -/
def ofMembers? (members : List (String × Json.Document)) : Option Settings :=
  (Overlay.ofMembers? members).map builtIn.layer

def parse (text : String) : Option Settings := (Json.Document.parse text).bind ofDocument?

end Settings

end Coordination
