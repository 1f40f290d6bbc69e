import Coordination.Boost

/-!
The state of a worker pool: a bounded buffer, the pushes that wait for room in it, and the
workers that take its items in batches. Workers that were started together form a crew and stop
together; every crew stops when the pool is terminated.
-/

namespace Coordination

namespace Pool

/-- An item on its way through a pool, with the number of the push that brought it. -/
structure Entry (α : Type) where
  push : Nat
  item : α
  deriving DecidableEq, Repr

/-- A push's watch on the block timeout: what the timeout was when the push blocked, and when it
will have been blocked for so long. -/
structure Watch where
  observed : Duration
  due : Nat
  deriving DecidableEq, Repr

/-- A push that waits for room in the buffer. -/
structure Blocked (α : Type) where
  entry : Entry α
  watch : Option Watch
  cancelled : Bool
  deriving DecidableEq, Repr

inductive Stance (α : Type) where
  /-- About to look for work. -/
  | ready
  /-- Waiting for an item, until its idle timer is due. -/
  | idle (due : Nat)
  /-- Inside a handler call; after its last one the worker exits. -/
  | handling (batch : List (Entry α)) (last : Bool)
  deriving DecidableEq, Repr

structure Worker (α : Type) where
  id : Nat
  crew : Nat
  /-- Items taken and not yet handed over. -/
  batch : List (Entry α)
  /-- Length of the next idle wait in nanoseconds. -/
  wait : Nat
  stance : Stance α
  deriving DecidableEq, Repr

/-- The time at which a crew stops: the end of a boost, or of a limited stay. -/
structure Deadline where
  crew : Nat
  due : Nat
  deriving DecidableEq, Repr

/-- A caller that waits until nothing is pending, and looks again when its timer is due. -/
structure Flush where
  call : Nat
  due : Nat
  cancelled : Bool
  deriving DecidableEq, Repr

/-- The idle wait of a worker that has just started or handed over a full batch. -/
def firstWait : Nat := 300000000

/-- The idle waits after one that passed without an item. -/
def nextWait : Nat := 100000000

/-- How long a flush waits between two looks. -/
def flushInterval : Nat := 10000000

inductive Error where
  | closed
  | cancelled
  deriving DecidableEq, Repr

def Error.message : Error → String
  | .closed => "worker pool is closed"
  | .cancelled => "operation was cancelled"

end Pool

/-- A worker pool over items `α`. -/
structure Pool (α : Type) where
  config : Pool.Config
  /-- Bytes that an item takes in a batch. -/
  itemBytes : Nat
  boost : Boost.Controller
  buffer : List (Pool.Entry α)
  closed : Bool
  /-- Every crew has been stopped. -/
  terminated : Bool
  /-- Items pushed and not yet handled, as the pool counts them. -/
  pending : Int
  /-- Pushes that wait for room, those that wait longest first. -/
  blocked : List (Pool.Blocked α)
  workers : List (Pool.Worker α)
  /-- Crews stopped on their own. -/
  stopped : List Nat
  /-- Boosts granted and not yet expired. -/
  boosts : List Pool.Deadline
  stays : List Pool.Deadline
  flushes : List Pool.Flush
  /-- Pushes made so far. -/
  pushes : Nat
  /-- Flushes begun so far. -/
  flushCalls : Nat
  /-- Crews formed so far. -/
  crews : Nat
  /-- Workers started so far. -/
  hired : Nat
  /-- Nanoseconds since the start. -/
  now : Nat
  deriving DecidableEq, Repr

namespace Pool

variable {α : Type}

/-- A new pool for items of so many bytes, created at time `now`. -/
def new (config : Config) (now itemBytes : Nat) : Pool α where
  config
  itemBytes
  boost := Boost.Controller.ofConfig config
  buffer := []
  closed := false
  terminated := false
  pending := 0
  blocked := []
  workers := []
  stopped := []
  boosts := []
  stays := []
  flushes := []
  pushes := 0
  flushCalls := 0
  crews := 0
  hired := 0
  now

/-- The token of a crew has fired. -/
def crewStopped (p : Pool α) (crew : Nat) : Bool := p.terminated || p.stopped.contains crew

def hasRoom (p : Pool α) : Bool := p.buffer.length < p.config.capacity

/-- A full batch is not too large to ask for room for it. -/
def batchFits (p : Pool α) : Bool := p.config.fullBatch * p.itemBytes ≤ maxBytes

def worker? (p : Pool α) (id : Nat) : Option (Worker α) := p.workers.find? fun w => w.id = id

def blocked? (p : Pool α) (push : Nat) : Option (Blocked α) :=
  p.blocked.find? fun b => b.entry.push = push

def flush? (p : Pool α) (call : Nat) : Option Flush := p.flushes.find? fun f => f.call = call

end Pool

end Coordination
