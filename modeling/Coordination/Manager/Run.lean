import Coordination.Manager.Attachment
import Coordination.Pool.Run

/-!
Runs of a pool that reports to a record. The pool is attached before it has had a worker, to a
record that nobody else reports to; from then on its own steps, those of the watchers and those of
administrators follow each other in any order.
-/

namespace Coordination.Manager

variable {α : Type}

/-- Steps that what is under way takes by itself, in the pool and among the watchers. -/
def Attached.Label.isInternal : Label α → Bool
  | .pool label => label.isInternal
  | .watch _ => true
  | .cancelBatch _ | .removeBatch _ => false

namespace Attached

/-- A pool with a record that knows of no batch yet. -/
def attach (p : Pool α) : Attached α := { pool := p, ledger := some { table := {}, links := [] } }

/-- A pool of this configuration was attached before its first worker came, and has come to a state
with its record through these steps and these events, each with its time. -/
inductive Run (config : Pool.Config) :
    Attached α → List (Label α) → List (Nat × Pool.Event α) → Prop where
  | start {p : Pool α} {labels : List (Pool.Label α)} {history : List (Nat × Pool.Event α)} :
    Pool.Run config Pool.AnyStep p labels history → p.hired = 0 →
      Run config (attach p) (labels.map .pool) history
  | next {a b : Attached α} {labels : List (Label α)} {history : List (Nat × Pool.Event α)}
    {label : Label α} {events : List (Pool.Event α)} :
    Run config a labels history → a.step label = some (b, events) →
      Run config b (labels ++ [label]) (history ++ Pool.stamp a.pool.now events)

/-- Nothing can go on without time moving, neither in the pool nor among the watchers. -/
def Resting (a : Attached α) : Prop := ∀ label : Label α, label.isInternal → a.step label = none

/-- The crews whose watchers have not run. -/
def watched (a : Attached α) : List Nat :=
  a.ledger.toList.flatMap fun l => (l.links.filter Link.watched).map Link.crew

/-- The watcher of a crew waits for nothing but its token. -/
theorem watch_eq_none_iff (a : Attached α) (crew : Nat) :
    a.step (.watch crew) = none ↔ crew ∈ a.watched → a.pool.crewStopped crew = false := by
  cases hledger : a.ledger with
  | none => simp [step, watched, hledger]
  | some l =>
      have hwatched : crew ∈ a.watched ↔ ∃ k ∈ l.links, k.watched = true ∧ k.crew = crew := by
        simp [watched, hledger, and_assoc]
      rw [hwatched]
      simp only [step, hledger, Option.map_eq_none_iff, Ledger.watch]
      split
      · rename_i hnone
        simp only [List.find?_eq_none, decide_eq_true_eq] at hnone
        simpa using fun k hk hwatch hcrew => absurd ⟨hcrew, hwatch⟩ (hnone k hk)
      · rename_i k hk
        have hfound := List.find?_some hk
        simp only [decide_eq_true_eq] at hfound
        have hexists : ∃ k ∈ l.links, k.watched = true ∧ k.crew = crew :=
          ⟨k, List.mem_of_find?_eq_some hk, hfound.symm⟩
        cases a.pool.crewStopped crew <;> simp [hexists]

/-- A pool and its record rest when the pool does and every stopped crew's watcher has run. -/
theorem resting_iff (a : Attached α) :
    a.Resting ↔ a.pool.Resting ∧ ∀ crew ∈ a.watched, a.pool.crewStopped crew = false := by
  constructor
  · intro h
    constructor
    · intro label hlabel
      exact Option.map_eq_none_iff.mp (h (.pool label) hlabel)
    · intro crew
      exact (watch_eq_none_iff a crew).mp (h (.watch crew) rfl)
  · rintro ⟨hpool, hwatch⟩ label hlabel
    cases label with
    | pool label => exact Option.map_eq_none_iff.mpr (hpool label hlabel)
    | watch crew => exact (watch_eq_none_iff a crew).mpr (hwatch crew)
    | cancelBatch id | removeBatch id => cases hlabel

instance (a : Attached α) : Decidable a.Resting := decidable_of_iff _ (resting_iff a).symm

def replay (a : Attached α) : List (Label α) → Option (Attached α × List (Nat × Pool.Event α))
  | [] => some (a, [])
  | label :: labels =>
    match a.step label with
    | none => none
    | some (b, events) =>
      (b.replay labels).map fun (c, history) => (c, Pool.stamp a.pool.now events ++ history)

/-- A replay carries a run on. -/
theorem Run.replay {config : Pool.Config} {a b : Attached α} {labels more : List (Label α)}
    {history later : List (Nat × Pool.Event α)} (run : Run config a labels history)
    (h : a.replay more = some (b, later)) : Run config b (labels ++ more) (history ++ later) := by
  induction more generalizing a labels history later with
  | nil =>
      obtain ⟨rfl, rfl⟩ : a = b ∧ [] = later := by simpa [Attached.replay] using h
      simpa using run
  | cons label more ih =>
      unfold Attached.replay at h
      split at h
      · cases h
      · rename_i c events hstep
        obtain ⟨⟨d, rest⟩, hrest, heq⟩ := Option.map_eq_some_iff.mp h
        obtain ⟨rfl, rfl⟩ := Prod.mk.inj heq
        simpa [List.append_assoc] using ih (Run.next run hstep) hrest

/-- What can be seen of a step of a pool: its time, what happened, and what the pool showed of
itself afterwards. -/
structure Moment (α : Type) where
  time : Nat
  events : List (Pool.Event α)
  shown : Snapshot
  deriving DecidableEq, Repr

/-- What can be seen of a pool that reports to nobody, if each of these steps can be taken. -/
def moments (p : Pool α) : List (Pool.Label α) → Option (Pool α × List (Moment α))
  | [] => some (p, [])
  | label :: labels =>
    match p.step label with
    | none => none
    | some (q, events) =>
      (moments q labels).map fun (r, later) => (r, ⟨p.now, events, snapshot q⟩ :: later)

/-- The end of the stay of a crew that has come and has no worker left. It stops nobody, and a timer
may run it early or late: at the end of the stay, or once the token of the crew has fired. -/
def lapses (p : Pool α) : Pool.Label α → Bool
  | .endStay crew => crew < p.crews ∧ p.workers.all fun w => w.crew ≠ crew
  | _ => false

/-- What can happen to a pool and its record if nobody else writes to the record. -/
inductive Move (α : Type) where
  | pool (label : Pool.Label α)
  | watch (crew : Nat)
  | attach
  | detach
  deriving DecidableEq, Repr

def move (a : Attached α) : Move α → Option (Attached α × List (Pool.Event α))
  | .pool label => a.step (.pool label)
  | .watch crew => a.step (.watch crew)
  | .attach => if a.ledger.isNone then some (attach a.pool, []) else none
  | .detach => some ({ a with ledger := none }, [])

/-- The step of the schedule that a move is, if it is one. -/
def Move.scheduled? (a : Attached α) : Move α → Option (Pool.Label α)
  | .pool label => if lapses a.pool label then none else some label
  | .watch _ | .attach | .detach => none

/-- Moves one after another, if each can be made, with the schedule that they follow and what can be
seen of it. -/
def observe (a : Attached α) :
    List (Move α) → Option (Attached α × List (Pool.Label α) × List (Moment α))
  | [] => some (a, [], [])
  | m :: moves =>
    match a.move m with
    | none => none
    | some (b, events) =>
      (b.observe moves).map fun (c, schedule, later) =>
        match m.scheduled? a with
        | some label => (c, label :: schedule, ⟨a.pool.now, events, snapshot b.pool⟩ :: later)
        | none => (c, schedule, later)

/-- A pool of this configuration that has not been attached. -/
def alone (config : Pool.Config) (start itemBytes : Nat) : Attached α :=
  ⟨Pool.new config start itemBytes, none⟩

end Attached

end Coordination.Manager
