import Coordination.Simulation.World.Run

/-!
The steps of a scenario on pools and queues, and their answers.
-/

namespace Coordination.Simulation

/-- How a pool is recorded when it is made. -/
structure Registration where
  name : Option String := none
  kind : String := "channel"
  exemplar : String := "u64"
  configuration : Json := .null
  reports : Bool := true

/-- What is pushed: an item, or a mail that the mailer of the target composes. -/
inductive Parcel where
  | item (item : Item)
  | letter (recipients : List String) (subject body : String)

/-- What a step asks for. Targets go by their labels. -/
inductive Command where
  | makePool (label : String) (config : Pool.Config) (handler : Handler)
      (registration : Option Registration)
  /-- A new service with further backends; without settings its document was malformed. -/
  | makeService (settings : Option Settings.Registry) (backends : Queue.Backends Item.Kind)
      (further : List (String × Queue.Backend Item.Kind))
  | makeQueue (label name : String) (exemplar : Item.Kind) (handler : Handler)
  /-- A queue of the built-in backend; without settings its document was malformed. -/
  | makeChannel (label : String) (settings : Option Settings) (exemplar : Item.Kind)
      (handler : Handler)
  | makeMailer (label : String) (sender : Mail.Sender)
  /-- Push items one after another, and tell the outcome under the name, if there is one. -/
  | push (label : String) (id : Option String) (parcels : List Parcel) (cancel : Option String)
  | flush (label id : String) (cancel : Option String)
  | run (label : String)
  | shutdown (label : String)
  | terminate (label : String)
  /-- Start workers, on the pool or through the record, and name their token. -/
  | addWorkers (label : String) (count : Nat) (stay : Option Duration) (token : Option String)
      (viaRecord : Bool)
  | setMaxWorkers (label : String) (limit : Option Nat)
  | manage (label : String) (boostWorkers : Nat) (limit : Option Nat) (lifetime : Duration)
  | registerBatch (label : String) (count : Nat) (token : Option String) (life : Option Duration)
      (flusher : Bool)
  | cancelBatch (label : String) (id : Nat)
  | removeBatch (label : String) (id : Nat)
  | batchExited (label : String) (id : Nat)
  | summary (label : String)
  | attach (label other : String)
  | summaries
  | find (name : String)
  | get (id : Nat)
  | remove (id : Nat)
  | count
  | describe
  | describeRecord (label : String)
  | cancel (name : String)
  | isCancelled (name : String)
  | abort (id : String)
  | advance (millis : Nat)

structure Product where
  record : Option Manager.Record
  queueName : Option String := none
  queueId : Option Nat := none
  sender : Option String := none

inductive Answer where
  | none
  | flag (b : Bool)
  | number (n : Option Nat)
  | text (s : Option String)
  | texts (l : List String)
  | size (n : Nat) (empty : Bool)
  | made (product : Product)
  | refused (error : Queue.Error Item.Kind)
  | taken (tag : String)
  | malformed
  | started (s : Started CallOutcome)
  /-- The step broke off because a sum had outgrown its word. -/
  | broke
  | summary (s : Manager.Summary)
  | summaries (l : List Manager.Summary)

namespace World

def addSite (w : World) (s : Site) : World × Nat :=
  ({ w with sites := w.sites ++ [s] }, w.sites.length)

def setTarget (w : World) (label : String) (t : Target) : World :=
  { w with targets := (label, t) :: w.targets.filter fun e => e.1 ≠ label }

/-- Bytes of an item of a bare pool. -/
def wordBytes : Nat := 8

def makePool (w : World) (label : String) (config : Pool.Config) (handler : Handler) :
    Option Registration → World × Answer
  | none =>
    let (w, k) := w.addSite { label, pool := Pool.new config w.now wordBytes, handler }
    (w.setTarget label { site := k, tellsClosed := true }, .made { record := none })
  | some r =>
    let (manager, record) := w.manager.add ⟨r.name, r.kind, r.exemplar, r.configuration⟩
    let (w, k) := w.addSite {
      label, handler
      pool := Pool.new config w.now wordBytes
      reportsTo := if r.reports then some record.id else none }
    let desk : Desk := { record, site := k }
    let w := { w with manager, desks := w.desks ++ [desk] }
    (w.setTarget label { site := k, record := some record.id, tellsClosed := true },
      .made { record := some record })

def install (w : World) (label : String) (q : Queue.Built Item.Kind)
    (manager : Manager.Directory) (handler : Handler) (target : Target) : World :=
  let (w, k) := w.addSite {
    label, handler
    pool := Pool.new q.pool w.now Item.bytes
    reportsTo := some q.record.id }
  let desk : Desk := { record := q.record, site := k }
  { w with manager, desks := w.desks ++ [desk] }.setTarget label
    { target with site := k, record := some q.record.id, queue := some q }

/-- Start workers; the answer is the token of their crew, unless the call breaks off. -/
def addWorkers (w : World) (k count : Nat) (stay : Option Duration) : World × Option Signal :=
  let crew := (w.sites[k]?.map fun s => s.pool.crews).getD 0
  match w.siteStep k (.addWorkers count stay) with
  | some (w, .startBroke _ :: _) => (w, none)
  | some (w, _) => (w, some (.crew k crew))
  | none => (w, some (.crew k crew))

/-- Start the workers that a queue is to have, and answer with what was asked for. -/
def run (w : World) (t : Target) (answer : Answer) : World × Answer :=
  match t.queue with
  | some q =>
    match w.addWorkers t.site q.workers none with
    | (w, some _) => (w, answer)
    | (w, none) => (w, .broke)
  | none => (w, answer)

/-- Register backends one after another, or tell the first tag that is taken. -/
def registerAll (backends : Queue.Backends Item.Kind) :
    List (String × Queue.Backend Item.Kind) → Except String (Queue.Backends Item.Kind)
  | [] => .ok backends
  | (tag, backend) :: rest =>
    match backends.register? tag backend with
    | some more => registerAll more rest
    | none => .error tag

def makeService (w : World) (settings : Settings.Registry) (backends : Queue.Backends Item.Kind)
    (further : List (String × Queue.Backend Item.Kind)) : World × Answer :=
  match registerAll backends further with
  | .ok backends => ({ w with service := ⟨settings, backends⟩ }, .texts settings.queues.keys)
  | .error tag => (w, .taken tag)

def makeQueue (w : World) (label name : String) (exemplar : Item.Kind) (handler : Handler) :
    World × Answer :=
  match w.service.create name exemplar w.manager with
  | (.error e, manager) => ({ w with manager }, .refused e)
  | (.ok q, manager) =>
    (w.install label q manager handler { site := 0 },
      .made { record := some q.record, queueName := some q.name })

def makeChannel (w : World) (label : String) (settings : Settings) (exemplar : Item.Kind)
    (handler : Handler) : World × Answer :=
  match Queue.channel settings exemplar w.manager with
  | (.error e, manager) => ({ w with manager }, .refused e)
  | (.ok q, manager) =>
    (w.install label q manager handler { site := 0, tellsClosed := true },
      .made { record := some q.record, queueName := some q.name, queueId := some q.record.id })

/-- The name of the queue that mails go through. -/
def mailQueue : String := "mail"

/-- A mailer: its queue and the workers of it. Its handler takes no time. -/
def makeMailer (w : World) (label : String) (sender : Mail.Sender) : World × Answer :=
  match w.service.create mailQueue .message w.manager with
  | (.error e, manager) => ({ w with manager }, .refused e)
  | (.ok q, manager) =>
    let handler : Handler := { only := some .message, silent := true }
    let w := w.install label q manager handler { site := 0, sender := some sender }
    let made : Answer := .made { record := some q.record, sender := some sender.address }
    match w.target? label with
    | some t => w.run t made
    | none => (w, made)

/-- The item of a parcel; letters are dated at the start of time. -/
def compose (sender : Option Mail.Sender) : Parcel → Item
  | .item item => item
  | .letter recipients subject body =>
    .message (Mail.Message.compose (sender.getD {}) recipients ⟨0, 0⟩ subject body)

def startPush (w : World) (t : Target) (id : Option String) (items : List Item)
    (cancel : Option Signal) : World × Started CallOutcome :=
  match pushItems t.site t.queue cancel w 0 items with
  | (w, .ended outcome) => (w, .done outcome)
  | (w, .waits n rest index) =>
    ({ w with tasks := ⟨id, t.site, cancel, t.queue, .push n rest index⟩ :: w.tasks }, .pending)

def startFlush (w : World) (t : Target) (id : String) (cancel : Option Signal) :
    World × Started CallOutcome :=
  match w.siteStep t.site (.flush (w.gaveUp cancel)) with
  | some (w, .flushFailed _ :: _) => (w, .done (.failed (.pool .cancelled) none))
  | some (w, .flushWaits n :: _) =>
    ({ w with tasks := ⟨some id, t.site, cancel, none, .flush n⟩ :: w.tasks }, .pending)
  | some (w, _) => (w, .done .ok)
  | none => (w, .done .ok)

def terminate (w : World) (t : Target) : World :=
  let w := w.order t.site .terminate
  match t.queue with
  | some q => { w with manager := q.retire w.manager }
  | none => w

/-- A record is told of its batches, and the token that it answers fires. -/
def tellTable (w : World) (d : Desk) (e : Manager.BatchEvent Signal) :
    World × Manager.BatchAnswer Signal :=
  let (table, answer) := d.table.step e
  ((w.setTable d.record.id table).fireAll answer.fired.toList, answer)

def attach (w : World) (t : Target) (record : Nat) : World :=
  match w.sites[t.site]? with
  | some s => if s.reportsTo.isNone then w.setSite t.site { s with reportsTo := some record } else w
  | none => w

def abort (w : World) (id : String) : World × Bool :=
  match w.tasks.find? fun t => t.id = some id with
  | none => (w, false)
  | some t =>
    let w := { w with tasks := w.tasks.filter fun u => !(u.site = t.site ∧ u.waiting = t.waiting) }
    match t.waiting with
    | .push n _ _ => (w.order t.site (.dropPush n), true)
    | .flush n => (w.order t.site (.dropFlush n), true)

def onTarget (w : World) (label : String) (f : Target → World × Answer) : World × Answer :=
  match w.target? label with
  | some t => f t
  | none => (w, .none)

def onDesk (w : World) (label : String) (f : Desk → World × Answer) : World × Answer :=
  match w.deskOf? label with
  | some d => f d
  | none => (w, .none)

/-- The summaries of all listed records, unless one of them breaks off. -/
def allSummaries (w : World) : Option (List Manager.Summary) :=
  (w.manager.queues.filterMap fun r => w.summary? r.id).mapM id

def perform (w : World) : Command → World × Answer
  | .makePool label config handler registration => w.makePool label config handler registration
  | .makeService none _ _ => (w, .malformed)
  | .makeService (some settings) backends further => w.makeService settings backends further
  | .makeQueue label name exemplar handler => w.makeQueue label name exemplar handler
  | .makeChannel _ none _ _ => (w, .malformed)
  | .makeChannel label (some settings) exemplar handler =>
    w.makeChannel label settings exemplar handler
  | .makeMailer label sender => w.makeMailer label sender
  | .push label id parcels cancel =>
    w.onTarget label fun t =>
      let (w, r) := w.startPush t id (parcels.map (compose t.sender)) (cancel.map w.signal)
      (w, if id.isSome then .started r else .none)
  | .flush label id cancel =>
    w.onTarget label fun t =>
      let (w, r) := w.startFlush t id (cancel.map w.signal)
      (w, .started r)
  | .run label => w.onTarget label fun t => w.run t .none
  | .shutdown label => w.onTarget label fun t => (w.order t.site .shutdown, .none)
  | .terminate label => w.onTarget label fun t => (w.terminate t, .none)
  | .addWorkers label count stay token viaRecord =>
    w.onTarget label fun t =>
      let k := if viaRecord then ((w.deskOf? label).map Desk.site).getD t.site else t.site
      match w.addWorkers k count stay with
      | (w, none) => (w, .broke)
      | (w, some signal) =>
        let w := match token with
          | some name => { w with aliases := (name, signal) :: w.aliases }
          | none => w
        (w, .flag (w.hasFired signal))
  | .setMaxWorkers label limit =>
    w.onTarget label fun t => (w.order t.site (.setMaxWorkers limit), .none)
  | .manage label boostWorkers limit lifetime =>
    w.onTarget label fun t => (w.order t.site (.manage boostWorkers limit lifetime), .none)
  | .registerBatch label count token life flusher =>
    w.onDesk label fun d =>
      let signal := (token.map w.signal).getD .anonymous
      let (w, answer) := w.tellTable d (.register count signal life flusher)
      (w, .number answer.registered)
  | .cancelBatch label id =>
    w.onDesk label fun d =>
      let (w, answer) := w.tellTable d (.cancel id)
      (w, .flag (answer.cancelled.getD false))
  | .removeBatch label id => w.onDesk label fun d => ((w.tellTable d (.remove id)).1, .none)
  | .batchExited label id => w.onDesk label fun d => ((w.tellTable d (.exited id)).1, .none)
  | .summary label =>
    w.onDesk label fun d =>
      match w.summary? d.record.id with
      | some (some s) => (w, .summary s)
      | some none => (w, .broke)
      | none => (w, .none)
  | .attach label other =>
    w.onTarget label fun t => w.onDesk other fun d => (w.attach t d.record.id, .none)
  | .summaries =>
    match w.allSummaries with
    | some l => (w, .summaries l)
    | none => (w, .broke)
  | .find name => (w, .number ((w.manager.findByName? name).map Manager.Record.id))
  | .get id => (w, .text ((w.manager.get? id).map Manager.Record.name))
  | .remove id =>
    let (manager, removed) := w.manager.remove id
    ({ w with manager }, .text (removed.map Manager.Record.name))
  | .count => (w, .size w.manager.size w.manager.isEmpty)
  | .describe => (w, .texts [w.manager.describe, w.service.describe w.manager])
  | .describeRecord label => w.onDesk label fun d => (w, .text (some d.record.describe))
  | .cancel name => (w.fire (w.signal name), .none)
  | .isCancelled name => (w, .flag (w.hasFired (w.signal name)))
  | .abort id =>
    let (w, found) := w.abort id
    (w, .flag found)
  | .advance millis => (clock.advance w.now (millis * millisecond) w, .none)

structure Report where
  answer : Answer
  ended : List (Ended CallOutcome)
  batches : List BatchLog

/-- One step and, unless it is not to settle, whatever can be done after it. -/
def report (w : World) (command : Command) (settles : Bool) : World × Report :=
  let (w, answer) := w.perform command
  let w := if settles then w.settle else w
  ({ w with ended := [], batches := [] }, ⟨answer, sortEnded w.ended, w.batches⟩)

end World

/-- The compact text that logged items other than numbers are compared by. -/
def Logged.toJson : Logged → Json
  | .number n => .nat n.toNat
  | .text s => .str s
  | .mail recipient => .obj [("mail", .str recipient)]
  | .other typeName => .obj [("other", .str typeName)]

/-- Numbers come before everything else; the rest goes by its text. -/
def Logged.le : Logged → Logged → Bool
  | .number m, .number n => m ≤ n
  | .number _, _ => true
  | _, .number _ => false
  | a, b => a.toJson.render ≤ b.toJson.render

def Logged.listLe : List Logged → List Logged → Bool
  | [], _ => true
  | _ :: _, [] => false
  | a :: r, b :: s => if a = b then listLe r s else a.le b

def BatchLog.le (a b : BatchLog) : Bool :=
  if a.time ≠ b.time then a.time < b.time
  else if a.label ≠ b.label then a.label < b.label
  else Logged.listLe a.items b.items

def BatchLog.sort (l : List BatchLog) : List BatchLog := l.mergeSort BatchLog.le

end Coordination.Simulation
