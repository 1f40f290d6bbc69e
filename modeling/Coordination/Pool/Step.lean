import Coordination.Pool.Basic

/-!
A worker pool as a machine. A label is a call, or a step of a push, worker, timer or flush that is
under way, at the grain of the points where it can be suspended; one look of a worker at its work
takes one item at most. A label whose step cannot be taken has no successor. What a handler does
is left open: a handler call ends when its label says so, in one of two ways.

Each step says what happened. Items are followed by the number of the push that brought them.
-/

namespace Coordination.Pool

inductive Event (α : Type) where
  /-- A push returned: its item is in the buffer. -/
  | accepted (push : Nat)
  /-- A push returned: its item was not and will not be in the buffer. -/
  | refused (push : Nat) (error : Error)
  | blocked (push : Nat)
  /-- A push stayed blocked for the block timeout it had read, and was answered. -/
  | asked (push : Nat) (observed : Duration) (decision : Boost.Decision)
  /-- A push broke off while it asked for a boost. Its item is gone, and it stays counted. -/
  | pushBroke (push : Nat)
  | crewStarted (crew : Nat) (count : Nat) (lifetime : Option Duration)
  /-- A start of so many workers broke off before any of them was started. -/
  | startBroke (count : Nat)
  | took (worker : Nat) (push : Nat)
  /-- A worker began an idle wait of so many nanoseconds. -/
  | waits (worker : Nat) (span : Nat)
  | waited (worker : Nat)
  /-- A handler was called, and the worker will end with the call or go on after it. -/
  | called (worker : Nat) (batch : List (Entry α)) (last : Bool)
  | handled (worker : Nat) (batch : List (Entry α)) (panicked : Bool)
  | exited (worker : Nat) (crew : Nat)
  | boostExpired (crew : Nat)
  /-- A flush returned: nothing was pending. -/
  | flushed (call : Nat)
  /-- A flush returned because its caller gave up. -/
  | flushFailed (call : Nat)
  | flushWaits (call : Nat)
  deriving DecidableEq, Repr

/-- Calls, and the steps of what is under way. -/
inductive Label (α : Type) where
  /-- A new push, whose caller may already have asked to give up. -/
  | push (item : α) (cancelled : Bool)
  /-- The caller of a waiting push asks it to give up. -/
  | cancelPush (push : Nat)
  | resume (push : Nat)
  /-- The caller of a waiting push goes away. -/
  | dropPush (push : Nat)
  | addWorkers (count : Nat) (stay : Option Duration)
  /-- Fire the token of a crew. -/
  | stopCrew (crew : Nat)
  /-- A worker that is not inside a handler call goes on. -/
  | work (worker : Nat)
  | finish (worker : Nat) (panicked : Bool)
  | expireBoost (crew : Nat)
  | endStay (crew : Nat)
  /-- A new flush, whose caller may already have asked to give up. -/
  | flush (cancelled : Bool)
  | cancelFlush (call : Nat)
  | giveUpFlush (call : Nat)
  | pollFlush (call : Nat)
  | dropFlush (call : Nat)
  | setMaxWorkers (limit : Option Nat)
  | manage (boostWorkers : Nat) (limit : Option Nat) (lifetime : Duration)
  | shutdown
  | terminate
  | tick (now : Nat)
  deriving DecidableEq, Repr

variable {α : Type}

/-- A pool and what happened on the way to it. -/
abbrev Outcome (α : Type) := Pool α × List (Event α)

/-- An outcome with events in front of it. -/
def after (events : List (Event α)) (o : Outcome α) : Outcome α := (o.1, events ++ o.2)

def accept (p : Pool α) (e : Entry α) : Outcome α :=
  ({ p with buffer := p.buffer ++ [e] }, [.accepted e.push])

/-- A push that was counted returns without having put its item anywhere. -/
def refuse (p : Pool α) (push : Nat) (error : Error) : Outcome α :=
  ({ p with pending := p.pending - 1 }, [.refused push error])

def block (p : Pool α) (b : Blocked α) : Outcome α :=
  ({ p with blocked := p.blocked ++ [b] }, [.blocked b.entry.push])

/-- A push that watches the block timeout: it tries the buffer first, so its caller's wish to give
up counts only when the buffer is full. -/
def pushWatching (p : Pool α) (e : Entry α) (cancelled : Bool) : Outcome α :=
  if p.closed then p.refuse e.push .closed
  else if p.hasRoom then p.accept e
  else if cancelled then p.refuse e.push .cancelled
  else p.block ⟨e, some ⟨p.boost.block, p.now + p.boost.block.nanos⟩, false⟩

/-- A push that does not: its caller's wish to give up comes first. -/
def pushPlain (p : Pool α) (e : Entry α) (cancelled : Bool) : Outcome α :=
  if cancelled then p.refuse e.push .cancelled
  else if p.closed then p.refuse e.push .closed
  else if p.hasRoom then p.accept e
  else p.block ⟨e, none, false⟩

/-- A new push. On a terminated pool it fails before it is counted. -/
def push (p : Pool α) (item : α) (cancelled : Bool) : Outcome α :=
  let e : Entry α := ⟨p.pushes, item⟩
  let p := { p with pushes := p.pushes + 1 }
  if p.terminated then (p, [.refused e.push .closed])
  else
    let p := { p with pending := p.pending + 1 }
    if p.boost.watchesPush then p.pushWatching e cancelled else p.pushPlain e cancelled

def unblock (p : Pool α) (push : Nat) : Pool α :=
  { p with blocked := p.blocked.filter fun b => b.entry.push ≠ push }

def newWorker (crew id : Nat) : Worker α := ⟨id, crew, [], firstWait, .ready⟩

def hire (p : Pool α) (count : Nat) (lifetime : Option Duration) : Outcome α :=
  ({ p with
      crews := p.crews + 1
      hired := p.hired + count
      workers := p.workers ++ (List.range count).map fun i => newWorker p.crews (p.hired + i) },
    [.crewStarted p.crews count lifetime])

/-- The push has been blocked for as long as it had read, and goes on waiting in its place without
a watch. -/
def unwatch (p : Pool α) (push : Nat) : Pool α :=
  { p with
    blocked := p.blocked.map fun b => if b.entry.push = push then { b with watch := none } else b }

/-- A push asks for a boost after having been blocked for `observed`. It breaks off where the count
of workers has no room for the boost, with the block timeout doubled and its item still counted. -/
def ask (p : Pool α) (push : Nat) (observed : Duration) : Outcome α :=
  let (boost, decision) := p.boost.blocked observed
  let asked : Event α := .asked push observed decision
  match decision with
  | .boost workers lifetime =>
    let expiry : Deadline := ⟨p.crews, p.now + lifetime.nanos⟩
    after [asked] (hire { p with boost, boosts := p.boosts ++ [expiry] } workers (some lifetime))
  | .overflow => ({ p.unblock push with boost }, [.pushBroke push])
  | _ => (p, [asked])

/-- A waiting push goes on: the end of the pool comes first, then its caller's wish to give up,
then the buffer, then its watch. -/
def resume (p : Pool α) (push : Nat) : Option (Outcome α) :=
  match p.blocked? push with
  | none => none
  | some b =>
    if p.terminated then some ((p.unblock push).refuse push .closed)
    else if b.cancelled then some ((p.unblock push).refuse push .cancelled)
    else if p.closed then some ((p.unblock push).refuse push .closed)
    else if p.hasRoom then some ((p.unblock push).accept b.entry)
    else
      match b.watch with
      | some w => if w.due ≤ p.now then some ((p.unwatch push).ask push w.observed) else none
      | none => none

def cancelPush (p : Pool α) (push : Nat) : Pool α :=
  { p with
    blocked := p.blocked.map fun b =>
      if b.entry.push = push then { b with cancelled := true } else b }

/-- Start workers. Without any the crew has a token but nothing that would stop it. The call breaks
off where the count of workers has no room for them. -/
def addWorkers (p : Pool α) (count : Nat) (stay : Option Duration) : Outcome α :=
  if count = 0 then ({ p with crews := p.crews + 1 }, [])
  else if p.boost.countable count then
    let stays := match stay with
      | some d => p.stays ++ [⟨p.crews, p.now + d.nanos⟩]
      | none => p.stays
    hire { p with boost := p.boost.started count, stays } count stay
  else (p, [.startBroke count])

def stopCrew (p : Pool α) (crew : Nat) : Pool α :=
  if p.stopped.contains crew then p else { p with stopped := crew :: p.stopped }

def update (p : Pool α) (w : Worker α) : Pool α :=
  { p with workers := p.workers.map fun v => if v.id = w.id then w else v }

def exit (p : Pool α) (w : Worker α) : Outcome α :=
  ({ p with
      workers := p.workers.filter fun v => v.id ≠ w.id
      boost := p.boost.stopped },
    [.exited w.id w.crew])

def call (p : Pool α) (w : Worker α) (batch : List (Entry α)) (last : Bool) : Outcome α :=
  (p.update { w with batch := [], stance := .handling batch last }, [.called w.id batch last])

/-- A worker hands its last batch over, if it has one, and ends. -/
def callLast (p : Pool α) (w : Worker α) (batch : List (Entry α)) : Outcome α :=
  if batch.isEmpty then p.exit w else p.call w batch true

/-- A worker of a terminated pool takes all that is left in the buffer, hands it over with what it
has, and ends. -/
def drain (p : Pool α) (w : Worker α) : Outcome α :=
  after (p.buffer.map fun e => .took w.id e.push)
    (callLast { p with buffer := [] } w (w.batch ++ p.buffer))

/-- A worker takes the first item of the buffer; a full batch is handed over. -/
def take (p : Pool α) (w : Worker α) (e : Entry α) (rest : List (Entry α)) : Outcome α :=
  let p := { p with buffer := rest }
  let batch := w.batch ++ [e]
  if p.config.fullBatch ≤ batch.length then
    after [.took w.id e.push] (p.call { w with wait := firstWait } batch false)
  else (p.update { w with batch, stance := .ready }, [.took w.id e.push])

/-- The idle timer of a worker is due: the items it has so far are handed over. -/
def idleFlush (p : Pool α) (w : Worker α) : Outcome α :=
  let w := { w with wait := nextWait }
  if w.batch.isEmpty then (p.update { w with stance := .ready }, [.waited w.id])
  else after [.waited w.id] (p.call w w.batch false)

/-- A worker with nothing to take: it starts its idle timer, or waits for it. -/
def rest (p : Pool α) (w : Worker α) : Option (Outcome α) :=
  match w.stance with
  | .ready => some (p.update { w with stance := .idle (p.now + w.wait) }, [.waits w.id w.wait])
  | .idle due => if due ≤ p.now then some (p.idleFlush w) else none
  | .handling _ _ => none

/-- A worker that is not inside a handler call goes on. Before anything else it makes room for a
full batch, and where there is none to be had it ends. The token of its crew comes first, then the
buffer, then the end of the pool, then its idle timer. -/
def look (p : Pool α) (w : Worker α) : Option (Outcome α) :=
  if w.batch.isEmpty ∧ ¬ p.batchFits then some (p.exit w)
  else if p.crewStopped w.crew then
    if p.terminated then some (p.drain w) else some (p.callLast w w.batch)
  else
    match p.buffer with
    | e :: rest => some (p.take w e rest)
    | [] => if p.closed then some (p.callLast w w.batch) else p.rest w

def work (p : Pool α) (id : Nat) : Option (Outcome α) :=
  match p.worker? id with
  | none => none
  | some w =>
    match w.stance with
    | .handling _ _ => none
    | _ => p.look w

/-- A handler call ends and its items are no longer pending. A panic ends the worker too. -/
def finish (p : Pool α) (id : Nat) (panicked : Bool) : Option (Outcome α) :=
  match p.worker? id with
  | none => none
  | some w =>
    match w.stance with
    | .handling batch last =>
      let p := { p with pending := p.pending - batch.length }
      let handled : Event α := .handled id batch panicked
      if last ∨ panicked then some (after [handled] (p.exit w))
      else some (p.update { w with stance := .ready }, [handled])
    | _ => none

/-- A boost ends at the end of its lifetime or with the pool. -/
def expireBoost (p : Pool α) (crew : Nat) : Option (Outcome α) :=
  match p.boosts.find? fun d => d.crew = crew with
  | none => none
  | some d =>
    if p.terminated ∨ d.due ≤ p.now then
      some ({ p.stopCrew crew with
          boosts := p.boosts.erase d
          boost := p.boost.expired },
        [.boostExpired crew])
    else none

/-- A limited stay ends; if the crew has been stopped before, nothing is left to do. -/
def endStay (p : Pool α) (crew : Nat) : Option (Outcome α) :=
  match p.stays.find? fun d => d.crew = crew with
  | none => none
  | some d =>
    if p.crewStopped crew then some ({ p with stays := p.stays.erase d }, [])
    else if d.due ≤ p.now then some ({ p.stopCrew crew with stays := p.stays.erase d }, [])
    else none

def flush (p : Pool α) (cancelled : Bool) : Outcome α :=
  let call := p.flushCalls
  let p := { p with flushCalls := p.flushCalls + 1 }
  if p.pending ≤ 0 then (p, [.flushed call])
  else if cancelled then (p, [.flushFailed call])
  else
    ({ p with flushes := p.flushes ++ [⟨call, p.now + flushInterval, false⟩] }, [.flushWaits call])

def endFlush (p : Pool α) (call : Nat) : Pool α :=
  { p with flushes := p.flushes.filter fun f => f.call ≠ call }

def cancelFlush (p : Pool α) (call : Nat) : Pool α :=
  { p with
    flushes := p.flushes.map fun f => if f.call = call then { f with cancelled := true } else f }

/-- A waiting flush gives up if its caller has asked it to. -/
def giveUpFlush (p : Pool α) (call : Nat) : Option (Outcome α) :=
  match p.flush? call with
  | none => none
  | some f => if f.cancelled then some (p.endFlush call, [.flushFailed call]) else none

/-- A waiting flush looks again when it is due. It may do so also when it could give up: which of
the two comes first is not said. -/
def pollFlush (p : Pool α) (call : Nat) : Option (Outcome α) :=
  match p.flush? call with
  | none => none
  | some f =>
    if f.due ≤ p.now then
      if p.pending ≤ 0 then some (p.endFlush call, [.flushed call])
      else
        some ({ p with flushes := p.flushes.map fun g =>
          if g.call = call then { g with due := p.now + flushInterval } else g }, [])
    else none

def step (p : Pool α) : Label α → Option (Outcome α)
  | .push item cancelled => some (p.push item cancelled)
  | .cancelPush n => some (p.cancelPush n, [])
  | .resume n => p.resume n
  | .dropPush n => some (p.unblock n, [])
  | .addWorkers count stay => some (p.addWorkers count stay)
  | .stopCrew crew => some (p.stopCrew crew, [])
  | .work id => p.work id
  | .finish id panicked => p.finish id panicked
  | .expireBoost crew => p.expireBoost crew
  | .endStay crew => p.endStay crew
  | .flush cancelled => some (p.flush cancelled)
  | .cancelFlush call => some (p.cancelFlush call, [])
  | .giveUpFlush call => p.giveUpFlush call
  | .pollFlush call => p.pollFlush call
  | .dropFlush call => some (p.endFlush call, [])
  | .setMaxWorkers limit => some ({ p with boost := p.boost.setMaxWorkers limit }, [])
  | .manage n limit lifetime => some ({ p with boost := p.boost.manage n limit lifetime }, [])
  | .shutdown => some ({ p with closed := true }, [])
  | .terminate => some ({ p with closed := true, terminated := true }, [])
  | .tick now => if p.now ≤ now then some ({ p with now }, []) else none

end Coordination.Pool
