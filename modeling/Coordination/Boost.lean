import Coordination.Pool.Config

/-!
The boost controller of a pool: worker counts and the adaptive block timeout. A push that stayed
blocked for the block timeout it had read may be granted a boost, which doubles the timeout; an
expired boost halves it again, never below its base. A herd of pushes that read the same timeout
is therefore granted one boost.
-/

namespace Coordination.Boost

/-- How far the block timeout has been escalated. -/
inductive Phase where
  | idle
  | boosted
  | decaying
  deriving DecidableEq, Repr

def Phase.name : Phase → String
  | .idle => "idle"
  | .boosted => "boosted"
  | .decaying => "decaying"

/-- The answer to a push that stayed blocked. -/
inductive Decision where
  /-- So many extra workers for so long; they are already counted. -/
  | boost (workers : Nat) (lifetime : Duration)
  /-- One of the two timeouts is zero. -/
  | disabled
  /-- The block timeout has grown past the one that the push had read. -/
  | alreadyEscalated
  /-- The limit leaves no room for a worker. -/
  | atCapacity
  /-- No answer: the count of workers has no room for the boost, and the call breaks off. -/
  | overflow
  deriving DecidableEq, Repr

/-- Worker counts and timeouts of one pool. -/
structure Controller where
  /-- How long a push has to stay blocked now. -/
  block : Duration
  /-- The block timeout without any boost. -/
  base : Duration
  /-- The highest block timeout since no boost was active. -/
  peak : Duration
  lifetime : Duration
  boostWorkers : Nat
  maxWorkers : Option Nat
  /-- Workers counted as live. The count is a 64-bit word. -/
  workers : Nat
  /-- Boosts granted and not yet expired. -/
  active : Nat
  deriving DecidableEq, Repr

namespace Controller

def ofConfig (c : Pool.Config) : Controller where
  block := c.blockTimeout
  base := c.blockTimeout
  peak := c.blockTimeout
  lifetime := c.boostTimeout
  boostWorkers := c.boostWorkers.toNat
  maxWorkers := c.maxWorkers.map UInt64.toNat
  workers := 0
  active := 0

/-- Boosting is on when both timeouts are set. -/
def enabled (s : Controller) : Bool := s.block ≠ Duration.zero ∧ s.lifetime ≠ Duration.zero

def withinLimit (s : Controller) : Bool :=
  match s.maxWorkers with
  | some limit => s.workers ≤ limit
  | none => true

/-- Whether a push that finds the buffer full watches the block timeout. -/
def watchesPush (s : Controller) : Bool := s.enabled && s.withinLimit

/-- Workers that may still be added; without a limit, as many as a word can count. -/
def room (s : Controller) : Nat :=
  match s.maxWorkers with
  | some limit => limit - s.workers
  | none => wordSize - 1

/-- Workers that a boost granted now would add. -/
def grant (s : Controller) : Nat := min s.boostWorkers s.room

/-- The count of workers has room for so many more. -/
def countable (s : Controller) (n : Nat) : Bool := s.workers + n < wordSize

def escalate (s : Controller) : Controller :=
  { s with block := s.block.double, peak := max s.peak s.block.double }

/-- A push stayed blocked for `observed`, the block timeout it had read when it blocked. The timeout
is doubled before the workers are counted, so a count without room for them leaves it doubled. -/
def blocked (s : Controller) (observed : Duration) : Controller × Decision :=
  if ¬ s.enabled then (s, .disabled)
  else if observed < s.block then (s, .alreadyEscalated)
  else if s.grant = 0 then (s, .atCapacity)
  else if ¬ s.countable s.grant then (s.escalate, .overflow)
  else
    ({ s.escalate with workers := s.workers + s.grant, active := s.active + 1 },
      .boost s.grant s.lifetime)

def expired (s : Controller) : Controller :=
  let block := max s.block.half s.base
  { s with
    block
    active := s.active - 1
    peak := if s.active - 1 = 0 then block else s.peak }

/-- Workers were started outside a boost. A count that has no room for them stays as it is, and the
call breaks off. -/
def started (s : Controller) (n : Nat) : Controller :=
  if s.countable n then { s with workers := s.workers + n } else s

def stopped (s : Controller) : Controller := { s with workers := s.workers - 1 }

def setMaxWorkers (s : Controller) (limit : Option Nat) : Controller :=
  { s with maxWorkers := limit }

/-- New size, limit and lifetime for the boosts to come. -/
def manage (s : Controller) (boostWorkers : Nat) (limit : Option Nat) (lifetime : Duration) :
    Controller :=
  { s with boostWorkers, maxWorkers := limit, lifetime }

/-- The phase is read off the block timeout: below its peak some boost has expired. -/
def phase (s : Controller) : Phase :=
  if s.active = 0 then .idle
  else if s.peak ≤ s.block then .boosted
  else .decaying

end Controller

/-- What a controller is told. -/
inductive Event where
  | blocked (observed : Duration)
  | expired
  | started (count : Nat)
  | stopped
  | setMaxWorkers (limit : Option Nat)
  | manage (boostWorkers : Nat) (limit : Option Nat) (lifetime : Duration)
  deriving DecidableEq, Repr

namespace Controller

/-- The call that an event stands for breaks off. -/
def overflows (s : Controller) : Event → Bool
  | .blocked observed => (s.blocked observed).2 = .overflow
  | .started n => !s.countable n
  | _ => false

/-- One event; only a blocked push is answered. -/
def step (s : Controller) : Event → Controller × Option Decision
  | .blocked observed => ((s.blocked observed).1, some (s.blocked observed).2)
  | .expired => (s.expired, none)
  | .started n => (s.started n, none)
  | .stopped => (s.stopped, none)
  | .setMaxWorkers limit => (s.setMaxWorkers limit, none)
  | .manage n limit lifetime => (s.manage n limit lifetime, none)

def run (s : Controller) (events : List Event) : Controller :=
  events.foldl (fun s e => (s.step e).1) s

@[simp] theorem run_nil (s : Controller) : s.run [] = s := rfl

@[simp] theorem run_cons (s : Controller) (e : Event) (es : List Event) :
    s.run (e :: es) = (s.step e).1.run es := rfl

theorem run_append (s : Controller) (es fs : List Event) :
    s.run (es ++ fs) = (s.run es).run fs := List.foldl_append ..

end Controller

end Coordination.Boost
