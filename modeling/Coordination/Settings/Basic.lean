import Coordination.Pool.Config

/-!
Settings of one named queue, their built-in values and their JSON form.
-/

namespace Coordination

structure Settings where
  /-- Tag of the backend; empty for the default one. -/
  kind : String := "channel"
  name : String := "default"
  /-- Capacity of the buffer. -/
  length : UInt64 := 20
  /-- Most items of one handler call. -/
  batchLength : UInt64 := 20
  boostWorkers : UInt64 := 5
  /-- The most workers that boosts may lead to; a negative number sets no limit. -/
  maxWorkers : Int64 := 10
  workers : UInt64 := 1
  /-- How long a push may stay blocked before it asks for a boost. -/
  blockTimeout : Duration := Duration.ofMillis 1000
  boostTimeout : Duration := Duration.ofMillis 180000
  deriving DecidableEq, Repr

namespace Settings

def builtIn : Settings := {}

/-- The limit that the settings set, if they set one. -/
def limit (s : Settings) : Option UInt64 :=
  if s.maxWorkers < 0 then none else some s.maxWorkers.toUInt64

def poolConfig (s : Settings) : Pool.Config where
  queueLength := s.length
  batchLength := max s.batchLength 1
  blockTimeout := s.blockTimeout
  boostTimeout := s.boostTimeout
  boostWorkers := s.boostWorkers
  maxWorkers := s.limit

/-- The members of the JSON form; timeouts are whole milliseconds. -/
def members (s : Settings) : List (String × Json) :=
  [
    ("type", .str s.kind),
    ("name", .str s.name),
    ("length", .nat s.length.toNat),
    ("batch_length", .nat s.batchLength.toNat),
    ("boost_workers", .nat s.boostWorkers.toNat),
    ("max_workers", .int s.maxWorkers.toInt),
    ("workers", .nat s.workers.toNat),
    ("block_timeout", .nat s.blockTimeout.writtenMillis),
    ("boost_timeout", .nat s.boostTimeout.writtenMillis)]

def toJson (s : Settings) : Json := .obj s.members

end Settings

end Coordination
