/-!
Virtual time. A world stands still until time is moved; then it is taken from one due instant to
the next, and at each of them everything runs that can.
-/

namespace Coordination.Simulation

/-- How a world of states `σ` moves in time. -/
structure Clock (σ : Type) where
  /-- Run whatever can run without time moving. -/
  settle : σ → σ
  /-- The times at which something will be due. -/
  dues : σ → List Nat
  set : Nat → σ → σ

namespace Clock

variable {σ : Type}

/-- The first of some times that lies after `now`. -/
def firstAfter (now : Nat) (times : List Nat) : Option Nat :=
  (times.filter fun t => now < t).min?

/-- Move time from `now` to `target` through every due instant between them. -/
def run (c : Clock σ) (now target : Nat) (s : σ) : σ :=
  match firstAfter now (c.dues s) with
  | some due =>
    if _h : now < due ∧ due ≤ target then c.run due target (c.settle (c.set due s))
    else c.settle (c.set target s)
  | none => c.settle (c.set target s)
termination_by target - now

/-- Move time by `span`, after everything has run that can run now. -/
def advance (c : Clock σ) (now span : Nat) (s : σ) : σ := c.run now (now + span) (c.settle s)

end Clock

def millisecond : Nat := 1000000

/-- What a started call has to say after its first look: its outcome, or nothing yet. -/
inductive Started (ω : Type) where
  | done (outcome : ω)
  | pending
  deriving DecidableEq, Repr

/-- The outcome of a call that was started earlier, with the time of its end in milliseconds and
the name under which it was started. -/
structure Ended (ω : Type) where
  time : Nat
  id : String
  outcome : ω
  deriving Repr

/-- Outcomes in the order of their times, and at one time in the order of names. -/
def sortEnded {ω : Type} (l : List (Ended ω)) : List (Ended ω) :=
  l.mergeSort fun a b => a.time < b.time ∨ (a.time = b.time ∧ a.id ≤ b.id)

def sortTexts (l : List String) : List String := l.mergeSort fun a b => a ≤ b

end Coordination.Simulation
