import Coordination.Lock.Section
import Coordination.Lock.Token
import Coordination.Simulation.Clock

/-!
A lock service in virtual time. Calls and sections are started under names; what cannot end at
once goes on as a task. Waiting calls try again in the order in which they began to wait.
-/

namespace Coordination.Simulation

open Coordination.Lock (Locker Sections Options)

/-- The tokens of a run: those the service made, by number, and those that callers made up. -/
inductive Credential where
  | issued (n : Nat)
  | presented (token : Lock.Token)
  deriving DecidableEq, Repr

inductive WorkEnd where
  | succeeds
  | fails
  | panics
  deriving DecidableEq, Repr

/-- The work of a section: how many milliseconds it takes, if it takes time, and how it ends. -/
structure Script where
  millis : Option Nat
  ending : WorkEnd
  deriving DecidableEq, Repr

inductive LockOutcome where
  | locked
  | failed (error : Lock.Error)
  /-- The work of a section succeeded; it had found the key held, or not. -/
  | worked (held : Bool)
  | workFailed
  | workPanicked
  deriving DecidableEq, Repr

/-- A section at work: what it saw of its key, and when it will be done. -/
structure LockJob where
  held : Bool
  due : Nat
  deriving DecidableEq, Repr

/-- A call or section that has not ended. -/
structure LockTask where
  id : String
  call : Nat
  cancel : Option String
  script : Option Script
  job : Option LockJob
  deriving DecidableEq, Repr

/-- What sections tell; their work says whether it had found the key held. -/
abbrev LockNews := Lock.SectionEvent Credential Unit Bool

abbrev LockStep := Lock.SectionLabel Credential Unit Bool

structure Locks where
  sections : Sections Credential := {}
  tasks : List LockTask := []
  /-- Tokens of the lock calls that succeeded, by name, the latest first. -/
  grants : List (String × Credential) := []
  fired : List String := []
  calls : Nat := 0
  minted : Nat := 0
  /-- Outcomes since the last report. -/
  log : List (Ended LockOutcome) := []

inductive LockCommand where
  | lock (id key : String) (options : Options) (cancel : Option String)
  | section (id key : String) (options : Options) (cancel : Option String) (script : Script)
  /-- Release a key with the token that the named call got. -/
  | releaseOf (key id : String)
  /-- Release a key with a made-up token. -/
  | releaseWith (key : String) (token : Lock.Token)
  | cancel (name : String)
  | isCancelled (name : String)
  | abort (id : String)
  | advance (millis : Nat)
  | close

inductive LockAnswer where
  | none
  | started (s : Started LockOutcome)
  | released
  | notReleased (error : Lock.Error)
  | noToken
  | flag (b : Bool)

namespace Locks

def now (s : Locks) : Nat := s.sections.locker.now

def finish (s : Locks) (task : LockTask) (outcome : LockOutcome) : Locks :=
  { s with
    tasks := s.tasks.filter fun t => t.call ≠ task.call
    log := s.log ++ [⟨s.now / millisecond, task.id, outcome⟩] }

def task? (s : Locks) (call : Nat) : Option LockTask := s.tasks.find? fun t => t.call = call

def outcomeOf : Lock.SectionResult Unit Bool → LockOutcome
  | .done held => .worked held
  | .workFailed _ => .workFailed
  | .lockError error => .failed error

def endWork (s : Locks) (task : LockTask) (ending : WorkEnd) : Locks :=
  let next : Option (Sections Credential × List LockNews) := match ending with
    | .succeeds => s.sections.finish task.call (.succeeded ((task.job.map LockJob.held).getD false))
    | .fails => s.sections.finish task.call (.failed ())
    | .panics => s.sections.abandon task.call
  match next with
  | none => s
  | some (sections, events) =>
    let s := { s with sections }
    match ending with
    | .panics => s.finish task .workPanicked
    | _ =>
      match events.findSome? fun
        | .ended call result => if call = task.call then some result else none
        | _ => none with
      | some result => s.finish task (outcomeOf result)
      | none => s

/-- What an event means for the tasks. -/
def note (s : Locks) : LockNews → Locks
  | .locker (.granted call _ token) =>
    match s.task? call with
    | some task =>
      if task.script.isSome then s
      else { s.finish task .locked with grants := (task.id, token) :: s.grants }
    | none => s
  | .locker (.failed call error) =>
    match s.task? call with
    | some task => if task.script.isSome then s else s.finish task (.failed error)
    | none => s
  | .locker _ => s
  | .began call =>
    match s.task? call, s.sections.holding? call with
    | some task, some holding =>
      match task.script with
      | some script =>
        let job : LockJob :=
          ⟨s.sections.locker.isLocked holding.key, s.now + script.millis.getD 0 * millisecond⟩
        let task := { task with job := some job }
        let s := { s with tasks := s.tasks.map fun t => if t.call = call then task else t }
        if job.due ≤ s.now then s.endWork task script.ending else s
      | none => s
    | _, _ => s
  | .ended call result =>
    match s.task? call with
    | some task => s.finish task (outcomeOf result)
    | none => s

def absorb (s : Locks) (next : Sections Credential × List LockNews) : Locks :=
  next.2.foldl note { s with sections := next.1 }

def make? (s : Locks) (label : LockStep) : Option Locks :=
  (s.sections.step label).map s.absorb

def fresh (s : Locks) : Credential := .issued s.minted

def draw (s : Locks) : Locks := { s with minted := s.minted + 1 }

/-- A timer that is due, or whose lock has gone. -/
def expireOne (s : Locks) : Option Locks :=
  s.sections.locker.timers.findSome? fun t => s.make? (.locker (.expire t.key t.owner))

/-- A section whose work is done. -/
def workOne (s : Locks) : Option Locks :=
  s.tasks.findSome? fun t =>
    match t.job, t.script with
    | some job, some script => if job.due ≤ s.now then some (s.endWork t script.ending) else none
    | _, _ => none

def retryOne (s : Locks) : Option Locks :=
  s.sections.locker.waiting.findSome? fun w =>
    s.draw.make? (.locker (.retry w.call s.fresh))

def giveUpOne (s : Locks) : Option Locks :=
  s.sections.locker.waiting.findSome? fun w => s.make? (.locker (.giveUp w.call))

def runOne (s : Locks) : Option Locks :=
  s.expireOne <|> s.workOne <|> s.retryOne <|> s.giveUpOne

/-- Run one thing after another, at most `fuel` of them. -/
def runAll : Nat → Locks → Locks
  | 0, s => s
  | fuel + 1, s =>
    match s.runOne with
    | some s' => runAll fuel s'
    | none => s

/-- More steps than can be made without time moving: every release wakes each task once, and
there is at most one release per task, timer or holder. -/
def bound (s : Locks) : Nat :=
  let load := s.tasks.length + s.sections.locker.timers.length + s.sections.locker.records.length
  4 * ((load + 2) * (load + 2))

def settle (s : Locks) : Locks := runAll s.bound s

def setTime (now : Nat) (s : Locks) : Locks := (s.make? (.locker (.tick now))).getD s

/-- The times at which a lock expires or a work is done. -/
def dues (s : Locks) : List Nat :=
  s.sections.locker.timers.map Lock.Timer.due ++ s.tasks.filterMap fun t => t.job.map LockJob.due

def clock : Clock Locks := ⟨settle, dues, setTime⟩

def isFired (s : Locks) (name : Option String) : Bool := name.any s.fired.contains

/-- Start a call, look at it once, and say what came of it. -/
def start (s : Locks) (task : LockTask) (label : LockStep) :
    Locks × Started LockOutcome :=
  let started := { s.draw with calls := s.calls + 1, tasks := task :: s.tasks, log := [] }
  let looked := (started.make? label).getD started
  let looked := (looked.make? (.locker (.giveUp task.call))).getD looked
  match looked.log with
  | e :: _ => ({ looked with log := s.log }, .done e.outcome)
  | [] => ({ looked with log := s.log }, .pending)

/-- The cancellation of a name fires, and reaches the calls that listen to it. -/
def cancel (s : Locks) (name : String) : Locks :=
  let s := if s.fired.contains name then s else { s with fired := name :: s.fired }
  s.tasks.foldl (fun s t =>
    if t.cancel = some name then (s.make? (.locker (.cancel t.call))).getD s else s) s

def abort (s : Locks) (id : String) : Locks × Bool :=
  match s.tasks.find? fun t => t.id = id with
  | none => (s, false)
  | some task =>
    let s := { s with tasks := s.tasks.filter fun t => t.call ≠ task.call }
    let label : LockStep :=
      if task.script.isSome then .abandon task.call else .locker (.drop task.call)
    ((s.make? label).getD s, true)

def release (s : Locks) (key : String) (token : Credential) : Locks × LockAnswer :=
  let (locker, events) := s.sections.locker.release key token
  let s := s.absorb (s.sections.withLocker (locker, events))
  if events.any fun e => e matches .removed .. then (s, .released)
  else (s, .notReleased .notFound)

def perform (s : Locks) : LockCommand → Locks × LockAnswer
  | .lock id key options cancel =>
    let task : LockTask := ⟨id, s.calls, cancel, none, none⟩
    let (s', r) := s.start task (.locker (.lock s.calls key options (s.isFired cancel) s.fresh))
    (s', .started r)
  | .section id key options cancel script =>
    let task : LockTask := ⟨id, s.calls, cancel, some script, none⟩
    let (s', r) := s.start task (.enter s.calls key options (s.isFired cancel) s.fresh)
    (s', .started r)
  | .releaseOf key id =>
    match s.grants.lookup id with
    | some token => s.release key token
    | none => (s, .noToken)
  | .releaseWith key token => s.release key (.presented token)
  | .cancel name => (s.cancel name, .none)
  | .isCancelled name => (s, .flag (s.fired.contains name))
  | .abort id =>
    let (s, found) := s.abort id
    (s, .flag found)
  | .advance millis => (clock.advance s.now (millis * millisecond) s, .none)
  | .close => (s, .flag true)

/-- One step and, unless it is not to settle, whatever can run after it. -/
def report (s : Locks) (command : LockCommand) (settles : Bool) :
    Locks × LockAnswer × List (Ended LockOutcome) :=
  let (s, answer) := s.perform command
  let s := if settles then s.settle else s
  ({ s with log := [] }, answer, sortEnded s.log)

def heldKeys (s : Locks) : List String := sortTexts (s.sections.locker.records.map Prod.fst)

/-- The names of the lock calls that succeeded, in order. -/
def acquired (s : Locks) : List String := sortTexts (s.grants.map Prod.fst).eraseDups

/-- The tokens of the named lock calls all differ. -/
def distinct (s : Locks) : Bool :=
  let tokens := (s.grants.map Prod.fst).eraseDups.filterMap fun id => s.grants.lookup id
  tokens.eraseDups.length = tokens.length

end Locks

end Coordination.Simulation
