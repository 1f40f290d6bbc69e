import Coordination.Simulation.World.Basic

/-!
How the world runs in virtual time. A worker runs until it has to wait, and pushes that wait for
room go on in the order in which they began to wait.
-/

namespace Coordination.Simulation.World

open Coordination.Manager (Ledger)

/-- How far a list of pushes has come. -/
inductive Progress where
  | ended (outcome : CallOutcome)
  | waits (number : Nat) (rest : List Item) (index : Nat)

/-- An item that a queue refuses does not reach the pool. -/
def check (queue : Option (Queue.Built Item.Kind)) (item : Item) :
    Except (Queue.Error Item.Kind) Unit :=
  match queue with
  | some q => q.check Item.kind item
  | none => .ok ()

/-- Push items one after another until one has to wait or fails. -/
def pushItems (k : Nat) (queue : Option (Queue.Built Item.Kind)) (cancel : Option Signal) :
    World → Nat → List Item → World × Progress
  | w, _, [] => (w, .ended .ok)
  | w, index, item :: rest =>
    match check queue item with
    | .error e => (w, .ended (.failed e (some index)))
    | .ok () =>
      match w.siteStep k (.push item (w.gaveUp cancel)) with
      | some (w, .accepted _ :: _) => pushItems k queue cancel w (index + 1) rest
      | some (w, .refused _ e :: _) => (w, .ended (.failed (.pool e) (some index)))
      | some (w, .blocked n :: _) => (w, .waits n rest index)
      | _ => (w, .ended .ok)

def tell (w : World) (id : Option String) (outcome : CallOutcome) : World :=
  match id with
  | some id => { w with ended := w.ended ++ [⟨w.time, id, outcome⟩] }
  | none => w

/-- A push has been accepted: the items after it follow. -/
def continuePush (w : World) (t : Task) (rest : List Item) (index : Nat) : World :=
  let w := { w with tasks := w.tasks.filter fun u => !(u.site = t.site ∧ u.waiting = t.waiting) }
  match pushItems t.site t.queue t.cancel w (index + 1) rest with
  | (w, .ended outcome) => w.tell t.id outcome
  | (w, .waits n rest index) =>
    { w with tasks := w.tasks ++ [{ t with waiting := .push n rest index }] }

def endTask (w : World) (t : Task) (outcome : CallOutcome) : World :=
  { w with tasks := w.tasks.filter fun u => !(u.site = t.site ∧ u.waiting = t.waiting) }.tell t.id
    outcome

def resume? (w : World) (k n : Nat) : Option World :=
  match w.tasks.find? fun t => t.pushes k n with
  | none => none
  | some t =>
    let w := if w.gaveUp t.cancel then w.order k (.cancelPush n) else w
    match w.siteStep k (.resume n), t.waiting with
    | some (w, .accepted _ :: _), .push _ rest index => some (w.continuePush t rest index)
    | some (w, .refused _ e :: _), .push _ _ index =>
      some (w.endTask t (.failed (.pool e) (some index)))
    | some (w, .pushBroke _ :: _), _ => some (w.endTask t .broke)
    | some (w, _), _ => some w
    | none, _ => none

/-- A flush that waits goes on, if it can. One that can give up does so. -/
def pollFlush? (w : World) (k call : Nat) : Option World :=
  match w.tasks.find? fun t => t.flushes k call with
  | none => none
  | some t =>
    let w := if w.gaveUp t.cancel then w.order k (.cancelFlush call) else w
    match w.siteStep k (.giveUpFlush call) with
    | some (w, _) => some (w.endTask t (.failed (.pool .cancelled) none))
    | none =>
      match w.siteStep k (.pollFlush call) with
      | some (w, .flushed _ :: _) => some (w.endTask t .ok)
      | some (w, _) => some w
      | none => none

/-- Something that the site of a number can do, by what `f` tries. -/
def anySite (w : World) (f : Nat → Site → Option World) : Option World :=
  w.sites.zipIdx.findSome? fun (s, k) => f k s

def deadline? (w : World) : Option World :=
  w.anySite fun k s =>
    (s.pool.boosts.findSome? fun d => (w.siteStep k (.expireBoost d.crew)).map Prod.fst) <|>
      s.pool.stays.findSome? fun d => (w.siteStep k (.endStay d.crew)).map Prod.fst

def watch? (w : World) : Option World :=
  w.anySite fun k s =>
    match s.reportsTo.bind w.desk? with
    | none => none
    | some d =>
      let ledger : Ledger Signal := ⟨d.table, s.links⟩
      s.links.findSome? fun link =>
        (ledger.watch s.pool link.crew).map fun (ledger, fired) =>
          ((w.setTable d.record.id ledger.table).setSite k { s with links := ledger.links }).fireAll
            fired

def job? (w : World) : Option World :=
  match w.jobs.find? fun j => j.due ≤ w.now with
  | none => none
  | some j =>
    some ({ w with jobs := w.jobs.erase j }.order j.site (.finish j.worker j.panics))

def worker? (w : World) : Option World :=
  w.anySite fun k s =>
    s.pool.workers.findSome? fun v => (w.siteStep k (.work v.id)).map Prod.fst

def push? (w : World) : Option World :=
  w.anySite fun k s => s.pool.blocked.findSome? fun b => w.resume? k b.entry.push

def flush? (w : World) : Option World :=
  w.anySite fun k s => s.pool.flushes.findSome? fun f => w.pollFlush? k f.call

def runOne (w : World) : Option World :=
  w.deadline? <|> w.watch? <|> w.job? <|> w.worker? <|> w.push? <|> w.flush?

/-- One thing after another, at most `fuel` of them. -/
def runAll : Nat → World → World
  | 0, w => w
  | fuel + 1, w =>
    match w.runOne with
    | some w' => runAll fuel w'
    | none => w

/-- More steps than can be made without time moving. An item is pushed, taken and handled once;
timers and watchers run once; and every one of these wakes each worker once at most. -/
def bound (w : World) : Nat :=
  let load := w.tasks.foldr (fun t n => t.load + n) 0 + w.sites.foldr (fun s n => s.load + n) 0 +
    w.jobs.length
  8 * ((load + 2) * (load + 2))

def settle (w : World) : World := runAll w.bound w

def setTime (now : Nat) (w : World) : World :=
  { w with
    now
    sites := w.sites.map fun s =>
      match s.pool.step (.tick now) with
      | some (pool, _) => { s with pool }
      | none => s }

def dues (w : World) : List Nat := w.jobs.map Job.due ++ w.sites.flatMap Site.dues

def clock : Clock World := ⟨settle, dues, setTime⟩

end Coordination.Simulation.World
