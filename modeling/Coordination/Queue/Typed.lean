import Coordination.Exemplar
import Coordination.Pool.Run

/-!
Typed queues. A typed queue has one exemplar, which its door and its handler share: an item of
another kind is turned away at the door, before the pool knows of it, and of each batch that the
pool hands over the handler gets the items of that kind.

A run of a queue is a run of its pool in which every push goes through the door, whatever kind of
item it brings.
-/

namespace Coordination.Queue

/-- A queue over a pool, which takes the items of one kind. -/
structure Typed (ι κ : Type) where
  name : String
  exemplar : Exemplar ι κ
  pool : Pool ι

namespace Typed

variable {ι κ : Type}

inductive Event (ι κ : Type) where
  | pool (event : Pool.Event ι)
  /-- A push returned: its item was turned away at the door. -/
  | turnedAway (mismatch : Exemplar.Mismatch κ)
  deriving DecidableEq, Repr

def new (name : String) (x : Exemplar ι κ) (config : Pool.Config) (now itemBytes : Nat) :
    Typed ι κ :=
  ⟨name, x, Pool.new config now itemBytes⟩

variable [DecidableEq κ]

/-- Why the door turns a step away, if it does: the step pushes an item of another kind. -/
def mismatch? (q : Typed ι κ) (label : Pool.Label ι) : Option (Exemplar.Mismatch κ) :=
  match label.item? with
  | none => none
  | some item =>
    match q.exemplar.check q.name item with
    | .ok () => none
    | .error mismatch => some mismatch

/-- One step: a push goes through the door, and what the door does not turn away is a step of the
pool. -/
def step (q : Typed ι κ) (label : Pool.Label ι) : Option (Typed ι κ × List (Event ι κ)) :=
  match q.mismatch? label with
  | some mismatch => some (q, [.turnedAway mismatch])
  | none =>
    match q.pool.step label with
    | none => none
    | some (pool, events) => some ({ q with pool }, events.map .pool)

/-- A queue of this name, exemplar and configuration has come to a state through these steps and
these events, each with its time. -/
inductive Run (name : String) (x : Exemplar ι κ) (config : Pool.Config) :
    Typed ι κ → List (Pool.Label ι) → List (Nat × Event ι κ) → Prop where
  | start (now itemBytes : Nat) : Run name x config (new name x config now itemBytes) [] []
  | next {q r : Typed ι κ} {labels : List (Pool.Label ι)} {history : List (Nat × Event ι κ)}
    {label : Pool.Label ι} {events : List (Event ι κ)} :
    Run name x config q labels history → q.step label = some (r, events) →
      Run name x config r (labels ++ [label]) (history ++ events.map fun e => (q.pool.now, e))

def replay (q : Typed ι κ) : List (Pool.Label ι) → Option (Typed ι κ × List (Nat × Event ι κ))
  | [] => some (q, [])
  | label :: labels =>
    match q.step label with
    | none => none
    | some (r, events) =>
      (r.replay labels).map fun (s, history) =>
        (s, events.map (fun e => (q.pool.now, e)) ++ history)

/-- A replay carries a run on. -/
theorem Run.replay {name : String} {x : Exemplar ι κ} {config : Pool.Config} {q r : Typed ι κ}
    {labels more : List (Pool.Label ι)} {history later : List (Nat × Event ι κ)}
    (run : Run name x config q labels history) (h : q.replay more = some (r, later)) :
    Run name x config r (labels ++ more) (history ++ later) := by
  induction more generalizing q labels history later with
  | nil =>
      obtain ⟨rfl, rfl⟩ : q = r ∧ [] = later := by simpa [Typed.replay] using h
      simpa using run
  | cons label more ih =>
      cases hstep : q.step label with
      | none => simp [Typed.replay, hstep] at h
      | some next =>
          obtain ⟨s, events⟩ := next
          obtain ⟨⟨t, rest⟩, hrest, heq⟩ : ∃ o, s.replay more = some o ∧
              (o.1, events.map (fun e => (q.pool.now, e)) ++ o.2) = (r, later) := by
            simpa [Typed.replay, hstep] using h
          obtain ⟨rfl, rfl⟩ := Prod.mk.inj heq
          have htail := ih (Run.next run hstep) hrest
          simpa [List.append_assoc] using htail

end Typed

end Coordination.Queue
