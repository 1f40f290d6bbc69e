import Coordination.Item
import Coordination.Manager.Attachment
import Coordination.Queue.Service
import Coordination.Simulation.Clock

/-!
Pools and queues side by side: sites, which are pools with a handler, the records they report to,
the cancellations that reach them, and the calls that go on as tasks.
-/

namespace Coordination.Simulation

open Coordination.Manager (Link Ledger BatchTable Directory)

/-- A cancellation: one that goes by a name, the token of a crew, or one that nobody else has. -/
inductive Signal where
  | named (name : String)
  | crew (site crew : Nat)
  | anonymous
  deriving DecidableEq, Repr

inductive Logged where
  | number (n : UInt64)
  | text (s : String)
  | mail (recipient : String)
  | other (typeName : String)
  deriving DecidableEq, Repr

def Logged.ofItem : Item → Logged
  | .word64 n => .number n
  | .text s => .text s
  | .mail _ recipient => .mail recipient
  | item => .other item.kind.typeName

structure Handler where
  millis : Nat := 0
  /-- Further milliseconds for each item. -/
  millisPerItem : Nat := 0
  /-- A call with one of these panics at its end. -/
  panicOn : List Logged := []
  /-- A typed handler drops items of other kinds. -/
  only : Option Item.Kind := none
  silent : Bool := false

/-- A pool with its handler, and the record that it reports to. -/
structure Site where
  label : String
  pool : Pool Item
  handler : Handler
  reportsTo : Option Nat := none
  links : List Link := []

/-- A record with its batches, and the site it was made for. It outlives its removal from the
manager. -/
structure Desk where
  record : Manager.Record
  site : Nat
  table : BatchTable Signal := {}

/-- What a label stands for. -/
structure Target where
  site : Nat
  record : Option Nat := none
  /-- The queue, unless it is a bare pool. -/
  queue : Option (Queue.Built Item.Kind) := none
  tellsClosed : Bool := false
  sender : Option Mail.Sender := none

inductive Waiting where
  /-- A push waits for room; the items after it, and its place among them. -/
  | push (number : Nat) (rest : List Item) (index : Nat)
  | flush (call : Nat)
  deriving DecidableEq, Repr

/-- A call that has not ended. A call without a name does not tell its outcome. -/
structure Task where
  id : Option String
  site : Nat
  cancel : Option Signal
  /-- The queue that checks the items, unless they go to a bare pool. -/
  queue : Option (Queue.Built Item.Kind)
  waiting : Waiting

/-- A handler call that has not ended. -/
structure Job where
  site : Nat
  worker : Nat
  due : Nat
  panics : Bool
  deriving DecidableEq, Repr

structure BatchLog where
  time : Nat
  label : String
  items : List Logged
  deriving DecidableEq, Repr

/-- The outcome of a push or flush; a failed push tells the place of the item. -/
inductive CallOutcome where
  | ok
  | failed (error : Queue.Error Item.Kind) (index : Option Nat)
  /-- The call broke off because a sum had outgrown its word. -/
  | broke
  deriving DecidableEq, Repr

structure World where
  /-- Nanoseconds since the start. -/
  now : Nat := 0
  manager : Directory := {}
  service : Queue.Service Item.Kind := Queue.Service.new {}
  sites : List Site := []
  desks : List Desk := []
  targets : List (String × Target) := []
  fired : List String := []
  /-- Names that stand for the tokens of crews. -/
  aliases : List (String × Signal) := []
  tasks : List Task := []
  jobs : List Job := []
  /-- Outcomes since the last report. -/
  ended : List (Ended CallOutcome) := []
  batches : List BatchLog := []

def Task.pushes (t : Task) (k n : Nat) : Bool :=
  match t.waiting with
  | .push number _ _ => t.site = k ∧ number = n
  | .flush _ => false

def Task.flushes (t : Task) (k call : Nat) : Bool :=
  match t.waiting with
  | .flush c => t.site = k ∧ c = call
  | .push .. => false

/-- Items that a task has still to push, itself included. -/
def Task.load (t : Task) : Nat :=
  match t.waiting with
  | .push _ rest _ => rest.length + 1
  | .flush _ => 1

def Site.load (s : Site) : Nat :=
  s.pool.buffer.length + s.pool.workers.length + s.pool.boosts.length + s.pool.stays.length +
    s.links.length + s.pool.flushes.length +
    s.pool.blocked.length * (s.pool.boost.boostWorkers + 1) +
    s.pool.workers.foldr (fun v n => v.batch.length + n) 0

def Site.dues (s : Site) : List Nat :=
  s.pool.boosts.map Pool.Deadline.due ++ s.pool.stays.map Pool.Deadline.due ++
    s.pool.flushes.map Pool.Flush.due ++
    (s.pool.blocked.filterMap fun b => b.watch.map Pool.Watch.due) ++
    s.pool.workers.filterMap fun v =>
      match v.stance with
      | .idle due => some due
      | _ => none

namespace World

def time (w : World) : Nat := w.now / millisecond

def signal (w : World) (name : String) : Signal := (w.aliases.lookup name).getD (.named name)

def hasFired (w : World) : Signal → Bool
  | .named name => w.fired.contains name
  | .crew site crew => w.sites[site]?.any fun s => s.pool.crewStopped crew
  | .anonymous => false

def gaveUp (w : World) (cancel : Option Signal) : Bool := cancel.any w.hasFired

def setSite (w : World) (k : Nat) (s : Site) : World := { w with sites := w.sites.set k s }

def desk? (w : World) (id : Nat) : Option Desk := w.desks.find? fun d => d.record.id = id

def setTable (w : World) (id : Nat) (table : BatchTable Signal) : World :=
  { w with desks := w.desks.map fun d => if d.record.id = id then { d with table } else d }

def fire (w : World) : Signal → World
  | .named name => if w.fired.contains name then w else { w with fired := name :: w.fired }
  | .crew k crew =>
    match w.sites[k]? with
    | some s => w.setSite k { s with pool := s.pool.stopCrew crew }
    | none => w
  | .anonymous => w

def fireAll (w : World) (signals : List Signal) : World := signals.foldl fire w

/-- A handler is called: the call is logged and takes its time. -/
def startCall (w : World) (k : Nat) (s : Site) (worker : Nat) (batch : List (Pool.Entry Item)) :
    World :=
  let items := match s.handler.only with
    | some kind => kind.select (batch.map Pool.Entry.item)
    | none => batch.map Pool.Entry.item
  let logged := items.map Logged.ofItem
  let span := s.handler.millis + s.handler.millisPerItem * items.length
  let job : Job :=
    ⟨k, worker, w.now + span * millisecond, logged.any s.handler.panicOn.contains⟩
  { w with
    jobs := w.jobs ++ [job]
    batches := if s.handler.silent then w.batches else w.batches ++ [⟨w.time, s.label, logged⟩] }

def startCalls (w : World) (k : Nat) (s : Site) (events : List (Pool.Event Item)) : World :=
  events.foldl (fun w e =>
    match e with
    | .called worker batch _ => w.startCall k s worker batch
    | _ => w) w

/-- What a step of a pool means for the record it reports to. -/
def reportEvents (w : World) (k : Nat) (s : Site) (events : List (Pool.Event Item)) : World :=
  match s.reportsTo.bind w.desk? with
  | none => w
  | some d =>
    let ledger : Ledger Signal := ⟨d.table, s.links⟩
    let (ledger, fired) := ledger.noteAll (Signal.crew k) events
    ((w.setTable d.record.id ledger.table).setSite k { s with links := ledger.links }).fireAll fired

def siteStep (w : World) (k : Nat) (label : Pool.Label Item) :
    Option (World × List (Pool.Event Item)) :=
  match w.sites[k]? with
  | none => none
  | some s =>
    match s.pool.step label with
    | none => none
    | some (pool, events) =>
      let s := { s with pool }
      some (((w.setSite k s).reportEvents k s events).startCalls k s events, events)

/-- Make a step of a pool that can always be made. -/
def order (w : World) (k : Nat) (label : Pool.Label Item) : World :=
  match w.siteStep k label with
  | some next => next.1
  | none => w

def snapshot (p : Pool Item) : Manager.Snapshot := Manager.snapshot p

/-- The summary of a record, if there is the record; the summary itself may break off. -/
def summary? (w : World) (id : Nat) : Option (Option Manager.Summary) := do
  let d ← w.desk? id
  let s ← w.sites[d.site]?
  pure (d.record.summary (snapshot s.pool) d.table)

def target? (w : World) (label : String) : Option Target := w.targets.lookup label

def deskOf? (w : World) (label : String) : Option Desk :=
  ((w.target? label).bind Target.record).bind w.desk?

end World

end Coordination.Simulation
