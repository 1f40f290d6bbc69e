import Coordination.Lock.Locker

/-!
Work under a lock. A section takes its key as a lock call does, works while it holds the lock and
releases it at the end, also when the work breaks off. The result of the work counts only if the
lock was still there at its end.
-/

namespace Coordination.Lock

/-- How the work of a section ended by itself: with a value or with an error of its own. -/
inductive Work (ε α : Type) where
  | succeeded (value : α)
  | failed (error : ε)
  deriving DecidableEq, Repr

inductive SectionResult (ε α : Type) where
  | done (value : α)
  /-- The work failed, whatever became of the lock. -/
  | workFailed (error : ε)
  /-- The lock was not granted, or was gone when the work had succeeded. -/
  | lockError (error : Error)
  deriving DecidableEq, Repr

/-- A section at work. -/
structure Holding (τ : Type) where
  call : Nat
  key : String
  token : τ
  deriving DecidableEq, Repr

/-- A lock service and the sections on it. -/
structure Sections (τ : Type) where
  locker : Locker τ := {}
  /-- Lock calls of sections that have not got their key yet. -/
  entering : List Nat := []
  working : List (Holding τ) := []
  deriving DecidableEq, Repr

/-- Events of the service, and of sections by the number of their lock call. -/
inductive SectionEvent (τ ε α : Type) where
  | locker (event : Event τ)
  | began (call : Nat)
  | ended (call : Nat) (result : SectionResult ε α)
  deriving DecidableEq, Repr

inductive SectionLabel (τ ε α : Type) where
  | locker (label : Label τ)
  | enter (call : Nat) (key : String) (options : Options) (cancelled : Bool) (fresh : τ)
  /-- The work of a section ends by itself. -/
  | finish (call : Nat) (work : Work ε α)
  /-- A section breaks off: its caller goes away, or its work panics. -/
  | abandon (call : Nat)
  deriving DecidableEq, Repr

namespace Sections

variable {τ ε α : Type} [DecidableEq τ]

/-- What an event of the service means for the sections: a section whose call was granted works,
and one whose call failed has ended. -/
def absorb (s : Sections τ) : Event τ → Sections τ × List (SectionEvent τ ε α)
  | .granted call key token =>
    if s.entering.contains call then
      ({ s with entering := s.entering.erase call, working := s.working ++ [⟨call, key, token⟩] },
        [.locker (.granted call key token), .began call])
    else (s, [.locker (.granted call key token)])
  | .failed call error =>
    if s.entering.contains call then
      ({ s with entering := s.entering.erase call },
        [.locker (.failed call error), .ended call (.lockError error)])
    else (s, [.locker (.failed call error)])
  | e => (s, [.locker e])

def absorbAll (s : Sections τ) : List (Event τ) → Sections τ × List (SectionEvent τ ε α)
  | [] => (s, [])
  | e :: es =>
    let (s, first) := s.absorb e
    let (s, rest) := absorbAll s es
    (s, first ++ rest)

/-- The service has made a step. -/
def withLocker (s : Sections τ) (next : Locker τ × List (Event τ)) :
    Sections τ × List (SectionEvent τ ε α) :=
  absorbAll { s with locker := next.1 } next.2

def holding? (s : Sections τ) (call : Nat) : Option (Holding τ) :=
  s.working.find? fun h => h.call = call

def leave (s : Sections τ) (call : Nat) : Sections τ :=
  { s with working := s.working.filter fun h => h.call ≠ call }

/-- The result of a section, given how its work ended and whether its lock was still there. -/
def result (work : Work ε α) (released : Bool) : SectionResult ε α :=
  match work with
  | .failed error => .workFailed error
  | .succeeded value => if released then .done value else .lockError .notFound

/-- The work of a section ends: the lock is released and the section has its result. -/
def finish (s : Sections τ) (call : Nat) (work : Work ε α) :
    Option (Sections τ × List (SectionEvent τ ε α)) :=
  match s.holding? call with
  | none => none
  | some h =>
    let released := s.locker.holder? h.key = some h.token
    let (s, events) := (s.leave call).withLocker (s.locker.release h.key h.token)
    some (s, events ++ [.ended call (result work released)])

/-- A section breaks off: at work it releases its lock, before that its call goes away. -/
def abandon (s : Sections τ) (call : Nat) : Option (Sections τ × List (SectionEvent τ ε α)) :=
  match s.holding? call with
  | some h => some ((s.leave call).withLocker (s.locker.release h.key h.token))
  | none =>
    if s.entering.contains call then
      some ({ s with locker := s.locker.forget call, entering := s.entering.erase call }, [])
    else none

/-- A new section, whose number may not be that of one at work. -/
def enter (s : Sections τ) (call : Nat) (key : String) (options : Options) (cancelled : Bool)
    (fresh : τ) : Option (Sections τ × List (SectionEvent τ ε α)) :=
  if (s.holding? call).isSome then none
  else
    (s.locker.lock call key options cancelled fresh).map
      { s with entering := call :: s.entering }.withLocker

/-- A step of the service. The call of a section goes away with the section only. -/
def stepLocker (s : Sections τ) (label : Label τ) :
    Option (Sections τ × List (SectionEvent τ ε α)) :=
  match label with
  | .drop call => if s.entering.contains call then none else (s.locker.step label).map s.withLocker
  | _ => (s.locker.step label).map s.withLocker

def step (s : Sections τ) : SectionLabel τ ε α → Option (Sections τ × List (SectionEvent τ ε α))
  | .locker label => s.stepLocker label
  | .enter call key options cancelled fresh => s.enter call key options cancelled fresh
  | .finish call work => s.finish call work
  | .abandon call => s.abandon call

end Sections

end Coordination.Lock
