import Coordination.Manager.Directory
import Coordination.Pool.Step

/-!
A pool that reports its crews to a queue record. Every crew with workers is recorded as a batch
when it starts; a worker that exits is taken off its batch; and a batch whose token has fired is
removed by a watcher of its own, a task that runs some time later. The pool never reads the record:
all that comes back from it are tokens to fire.
-/

namespace Coordination.Manager

/-- A crew and the batch it was recorded as. -/
structure Link where
  crew : Nat
  batch : Nat
  /-- The watcher of the batch has not run. -/
  watched : Bool
  deriving DecidableEq, Repr

/-- A record and the links that lead to it. `name` makes the token of a crew. -/
structure Ledger (τ : Type) where
  table : BatchTable τ
  links : List Link
  deriving DecidableEq, Repr

namespace Ledger

variable {τ α : Type}

def link? (l : Ledger τ) (crew : Nat) : Option Link := l.links.find? fun k => k.crew = crew

/-- One event of the pool enters the record; the tokens to fire are returned. -/
def note (name : Nat → τ) (l : Ledger τ) : Pool.Event α → Ledger τ × List τ
  | .crewStarted crew count lifetime =>
    let (table, id) := l.table.register count (name crew) lifetime false
    ({ table, links := l.links ++ [⟨crew, id, true⟩] }, [])
  | .exited _ crew =>
    match l.link? crew with
    | some k =>
      let (table, fired) := l.table.exited k.batch
      ({ l with table }, fired.toList)
    | none => (l, [])
  | _ => (l, [])

def noteAll (name : Nat → τ) (l : Ledger τ) : List (Pool.Event α) → Ledger τ × List τ
  | [] => (l, [])
  | e :: es =>
    let (l, fired) := l.note name e
    let (l, more) := noteAll name l es
    (l, fired ++ more)

/-- The watcher of a crew that has stopped takes its batch off the record. -/
def watch (p : Pool α) (l : Ledger τ) (crew : Nat) : Option (Ledger τ × List τ) :=
  match l.links.find? fun k => k.crew = crew ∧ k.watched with
  | none => none
  | some k =>
    if p.crewStopped crew then
      let (table, fired) := l.table.forget k.batch
      some
        ({ table, links := l.links.map fun j => if j = k then { j with watched := false } else j },
        fired.toList)
    else none

end Ledger

def snapshot {α : Type} (p : Pool α) : Snapshot where
  phase := p.boost.phase
  pending := p.pending
  workers := p.boost.workers
  maxWorkers := p.boost.maxWorkers
  boostWorkers := p.boost.boostWorkers
  blockTimeout := p.boost.block
  boostTimeout := p.boost.lifetime

/-- A pool with the record it reports to, if it reports to one. Tokens are crew numbers. -/
structure Attached (α : Type) where
  pool : Pool α
  ledger : Option (Ledger Nat)
  deriving DecidableEq, Repr

/-- Steps of the pool, of watchers, and of administrators on the record. -/
inductive Attached.Label (α : Type) where
  | pool (label : Pool.Label α)
  | watch (crew : Nat)
  | cancelBatch (id : Nat)
  | removeBatch (id : Nat)
  deriving DecidableEq, Repr

namespace Attached

variable {α : Type}

/-- Tokens that the record fires stop their crews. -/
def fire (p : Pool α) (fired : List Nat) : Pool α := fired.foldl Pool.stopCrew p

def absorb (a : Attached α) (next : Pool.Outcome α) : Attached α :=
  match a.ledger with
  | none => { a with pool := next.1 }
  | some l =>
    let (l, fired) := l.noteAll id next.2
    { pool := fire next.1 fired, ledger := some l }

def withLedger (a : Attached α) (next : Ledger Nat × List Nat) : Attached α :=
  { pool := fire a.pool next.2, ledger := some next.1 }

def forget (a : Attached α) (l : Ledger Nat) (id : Nat) : Attached α :=
  let (table, fired) := l.table.forget id
  a.withLedger ({ l with table }, fired.toList)

def step (a : Attached α) : Label α → Option (Attached α × List (Pool.Event α))
  | .pool label => (a.pool.step label).map fun next => (a.absorb next, next.2)
  | .watch crew =>
    match a.ledger with
    | some l => (l.watch a.pool crew).map fun next => (a.withLedger next, [])
    | none => none
  | .cancelBatch id | .removeBatch id => a.ledger.map fun l => (a.forget l id, [])

end Attached

end Coordination.Manager
