import Coordination.Duration

/-!
The worker batches that a queue record knows of. A batch is forgotten when it is cancelled or
removed, or when its last worker has exited, and its token is fired exactly then; the operations
return the token to fire.
-/

namespace Coordination.Manager

/-- The longest lifetime that leads to a representable end, some 260000 years. -/
def longestLifetime : Nat := 8208700000000000000000

/-- A batch of workers that were started together. -/
structure Batch (τ : Type) where
  id : Nat
  /-- Workers that have not exited. -/
  count : Nat
  token : τ
  /-- The time from start to end, for a batch that ends by itself at a representable time. -/
  lifetime : Option Duration
  flusher : Bool
  deriving DecidableEq, Repr

def Batch.total {τ : Type} (batches : List (Batch τ)) : Nat :=
  batches.foldr (fun b n => b.count + n) 0

/-- The batches of one record, and how many there have been. -/
structure BatchTable (τ : Type) where
  /-- Number of the newest batch. -/
  counter : Nat := 0
  batches : List (Batch τ) := []
  deriving DecidableEq, Repr

/-- A lifetime, unless its end is not representable. -/
def representable (lifetime : Option Duration) : Option Duration :=
  lifetime.filter fun d => d.nanos ≤ longestLifetime

namespace BatchTable

variable {τ : Type}

def batch? (t : BatchTable τ) (id : Nat) : Option (Batch τ) := t.batches.find? fun b => b.id = id

/-- Record a new batch; it gets the next number. -/
def register (t : BatchTable τ) (count : Nat) (token : τ) (lifetime : Option Duration)
    (flusher : Bool) : BatchTable τ × Nat :=
  ({ counter := t.counter + 1
     batches := t.batches ++ [⟨t.counter + 1, count, token, representable lifetime, flusher⟩] },
    t.counter + 1)

/-- Forget a batch; the token to fire is that of the batch, if it was recorded. -/
def forget (t : BatchTable τ) (id : Nat) : BatchTable τ × Option τ :=
  ({ t with batches := t.batches.filter fun b => b.id ≠ id }, (t.batch? id).map Batch.token)

/-- One worker of a batch exited. The batch is forgotten with its last worker. -/
def exited (t : BatchTable τ) (id : Nat) : BatchTable τ × Option τ :=
  match t.batch? id with
  | none => (t, none)
  | some b =>
    if b.count ≤ 1 then t.forget id
    else
      ({ t with batches := t.batches.map fun c =>
          if c.id = id then { c with count := c.count - 1 } else c }, none)

/-- The recorded batches in the order of their numbers, whatever order they are kept in. -/
def workers (t : BatchTable τ) : List (Batch τ) := t.batches.mergeSort fun b c => b.id ≤ c.id

/-- Workers over all recorded batches, unless their sum outgrows its word. -/
def workerNumber (t : BatchTable τ) : Option Nat := wordSum? (t.batches.map Batch.count)

end BatchTable

inductive BatchEvent (τ : Type) where
  | register (count : Nat) (token : τ) (lifetime : Option Duration) (flusher : Bool)
  | cancel (id : Nat)
  | remove (id : Nat)
  | exited (id : Nat)
  deriving DecidableEq, Repr

/-- What a batch table answers: the number of a new batch, whether there was something to cancel,
and which token to fire. -/
structure BatchAnswer (τ : Type) where
  registered : Option Nat := none
  cancelled : Option Bool := none
  fired : Option τ := none
  deriving DecidableEq, Repr

def BatchTable.step {τ : Type} (t : BatchTable τ) : BatchEvent τ → BatchTable τ × BatchAnswer τ
  | .register count token lifetime flusher =>
    let (t', id) := t.register count token lifetime flusher
    (t', { registered := some id })
  | .cancel id =>
    let (t', fired) := t.forget id
    (t', { cancelled := some fired.isSome, fired })
  | .remove id =>
    let (t', fired) := t.forget id
    (t', { fired })
  | .exited id =>
    let (t', fired) := t.exited id
    (t', { fired })

/-- What a batch table was told, and what it answered. -/
structure BatchTurn (τ : Type) where
  event : BatchEvent τ
  answer : BatchAnswer τ
  deriving DecidableEq, Repr

namespace BatchTable

variable {τ : Type}

/-- A batch table has come to a state through these turns. -/
inductive Run : BatchTable τ → List (BatchTurn τ) → Prop where
  | start : Run {} []
  | next {t : BatchTable τ} {seen : List (BatchTurn τ)} (e : BatchEvent τ) :
    Run t seen → Run (t.step e).1 (seen ++ [⟨e, (t.step e).2⟩])

def tell (t : BatchTable τ) : List (BatchEvent τ) → BatchTable τ × List (BatchTurn τ)
  | [] => (t, [])
  | e :: events =>
    let (t', answer) := t.step e
    let (t', later) := t'.tell events
    (t', ⟨e, answer⟩ :: later)

/-- A run is carried on. -/
theorem Run.tell {t : BatchTable τ} {seen : List (BatchTurn τ)} (run : Run t seen)
    (events : List (BatchEvent τ)) : Run (t.tell events).1 (seen ++ (t.tell events).2) := by
  induction events generalizing t seen with
  | nil => simpa [BatchTable.tell] using run
  | cons e events ih => simpa [BatchTable.tell] using ih (run.next e)

end BatchTable

end Coordination.Manager
