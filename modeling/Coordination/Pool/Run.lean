import Coordination.Pool.Step

/-!
Runs of a pool: how a state came about, with the steps taken, everything that happened on the way
and when. Any step that can be taken may be taken next, so a run stands for one of all possible
interleavings; what callers promise, or how time passes, is said by the steps that a run may take.
A pool rests when nothing that is under way can go on without time moving.
-/

namespace Coordination.Pool

variable {α : Type}

/-- Events of one time. -/
def stamp (now : Nat) (events : List (Event α)) : List (Nat × Event α) :=
  events.map fun e => (now, e)

/-- A pool of this configuration has come to a state through these steps, each of which it may
take, and through these events, each with its time. -/
inductive Run (config : Config) (may : Pool α → Label α → Prop) :
    Pool α → List (Label α) → List (Nat × Event α) → Prop where
  | start (now itemBytes : Nat) : Run config may (new config now itemBytes) [] []
  | next {p q : Pool α} {labels : List (Label α)} {history : List (Nat × Event α)}
    {label : Label α} {events : List (Event α)} :
    Run config may p labels history → may p label → p.step label = some (q, events) →
      Run config may q (labels ++ [label]) (history ++ stamp p.now events)

def AnyStep : Pool α → Label α → Prop := fun _ _ => True

/-- Steps that what is under way takes by itself. Handler calls are not among them: when they end
is not up to the pool. -/
def Label.isInternal : Label α → Bool
  | .resume _ | .work _ | .expireBoost _ | .endStay _ | .giveUpFlush _ | .pollFlush _ => true
  | _ => false

/-- Nothing can go on without time moving. -/
def Resting (p : Pool α) : Prop := ∀ label : Label α, label.isInternal → p.step label = none

/-- What is under way is known to the pool, so it can be seen whether any of it can go on. -/
theorem resting_iff (p : Pool α) :
    p.Resting ↔
      (∀ b ∈ p.blocked, (p.resume b.entry.push).isNone) ∧
      (∀ w ∈ p.workers, (p.work w.id).isNone) ∧
      (∀ d ∈ p.boosts, (p.expireBoost d.crew).isNone) ∧
      (∀ d ∈ p.stays, (p.endStay d.crew).isNone) ∧
      ∀ f ∈ p.flushes, (p.giveUpFlush f.call).isNone ∧ (p.pollFlush f.call).isNone := by
  simp only [Option.isNone_iff_eq_none]
  constructor
  · intro h
    exact ⟨fun b _ => h (.resume b.entry.push) rfl, fun w _ => h (.work w.id) rfl,
      fun d _ => h (.expireBoost d.crew) rfl, fun d _ => h (.endStay d.crew) rfl,
      fun f _ => ⟨h (.giveUpFlush f.call) rfl, h (.pollFlush f.call) rfl⟩⟩
  · rintro ⟨hblocked, hworkers, hboosts, hstays, hflushes⟩ label hlabel
    cases label with
    | resume push =>
        cases hb : p.blocked? push with
        | none => simp only [step, Pool.resume, hb]
        | some b =>
            obtain rfl : b.entry.push = push := by simpa using List.find?_some hb
            exact hblocked b (List.mem_of_find?_eq_some hb)
    | work id =>
        cases hw : p.worker? id with
        | none => simp only [step, Pool.work, hw]
        | some w =>
            obtain rfl : w.id = id := by simpa using List.find?_some hw
            exact hworkers w (List.mem_of_find?_eq_some hw)
    | expireBoost crew =>
        cases hd : p.boosts.find? fun d => d.crew = crew with
        | none => simp only [step, Pool.expireBoost, hd]
        | some d =>
            obtain rfl : d.crew = crew := by simpa using List.find?_some hd
            exact hboosts d (List.mem_of_find?_eq_some hd)
    | endStay crew =>
        cases hd : p.stays.find? fun d => d.crew = crew with
        | none => simp only [step, Pool.endStay, hd]
        | some d =>
            obtain rfl : d.crew = crew := by simpa using List.find?_some hd
            exact hstays d (List.mem_of_find?_eq_some hd)
    | giveUpFlush call =>
        cases hf : p.flush? call with
        | none => simp only [step, Pool.giveUpFlush, hf]
        | some f =>
            obtain rfl : f.call = call := by simpa using List.find?_some hf
            exact (hflushes f (List.mem_of_find?_eq_some hf)).1
    | pollFlush call =>
        cases hf : p.flush? call with
        | none => simp only [step, Pool.pollFlush, hf]
        | some f =>
            obtain rfl : f.call = call := by simpa using List.find?_some hf
            exact (hflushes f (List.mem_of_find?_eq_some hf)).2
    | push | cancelPush | dropPush | addWorkers | stopCrew | finish | flush | cancelFlush
    | dropFlush | setMaxWorkers | manage | shutdown | terminate | tick => cases hlabel

instance (p : Pool α) : Decidable p.Resting := decidable_of_iff _ (resting_iff p).symm

/-- Time moves only when the pool rests, so that nothing that is due runs late. -/
def Prompt (p : Pool α) (label : Label α) : Prop := ∀ now, label = .tick now → p.Resting

instance decidablePrompt (p : Pool α) : (label : Label α) → Decidable (Prompt p label)
  | .tick now => decidable_of_iff p.Resting ⟨fun h _ _ => h, fun h => h now rfl⟩
  | .push .. | .cancelPush .. | .resume .. | .dropPush .. | .addWorkers .. | .stopCrew .. | .work ..
  | .finish .. | .expireBoost .. | .endStay .. | .flush .. | .cancelFlush .. | .giveUpFlush ..
  | .pollFlush .. | .dropFlush .. | .setMaxWorkers .. | .manage .. | .shutdown | .terminate =>
    isTrue nofun

def replay (p : Pool α) : List (Label α) → Option (Pool α × List (Nat × Event α))
  | [] => some (p, [])
  | label :: labels =>
    match p.step label with
    | none => none
    | some (q, events) =>
      (q.replay labels).map fun (r, history) => (r, stamp p.now events ++ history)

theorem replay_cons {p q : Pool α} {label : Label α} {labels : List (Label α)}
    {history : List (Nat × Event α)} (h : p.replay (label :: labels) = some (q, history)) :
    ∃ r events later, p.step label = some (r, events) ∧ r.replay labels = some (q, later) ∧
      stamp p.now events ++ later = history := by
  cases hstep : p.step label with
  | none => simp [replay, hstep] at h
  | some next =>
      obtain ⟨r, events⟩ := next
      obtain ⟨⟨s, later⟩, hlater, heq⟩ : ∃ o, r.replay labels = some o ∧
          (o.1, stamp p.now events ++ o.2) = (q, history) := by
        simpa [replay, hstep] using h
      obtain ⟨rfl, hhistory⟩ := Prod.mk.inj heq
      exact ⟨r, events, later, rfl, hlater, hhistory⟩

/-- Each of these steps may be taken when its turn comes. -/
def Allows (may : Pool α → Label α → Prop) (p : Pool α) : List (Label α) → Prop
  | [] => True
  | label :: labels =>
    may p label ∧
      match p.step label with
      | none => True
      | some (q, _) => q.Allows may labels

instance decidableAllows (may : Pool α → Label α → Prop) [∀ p label, Decidable (may p label)]
    (p : Pool α) : (labels : List (Label α)) → Decidable (p.Allows may labels)
  | [] => inferInstanceAs (Decidable True)
  | label :: labels =>
    have : Decidable (match p.step label with
        | none => True
        | some (q, _) => q.Allows may labels) :=
      match p.step label with
      | none => inferInstanceAs (Decidable True)
      | some (q, _) => decidableAllows may q labels
    inferInstanceAs (Decidable (_ ∧ _))

theorem allows_cons {may : Pool α → Label α → Prop} {p q : Pool α} {label : Label α}
    {labels : List (Label α)} {events : List (Event α)} (h : p.Allows may (label :: labels))
    (hstep : p.step label = some (q, events)) : may p label ∧ q.Allows may labels := by
  simpa [Allows, hstep] using h

/-- What each step that may be taken keeps, a replay of such steps keeps. -/
theorem replay_keeps {may : Pool α → Label α → Prop}
    {holds : Pool α → List (Label α) → List (Nat × Event α) → Prop}
    (keeps : ∀ p labels history label q events, holds p labels history → may p label →
      p.step label = some (q, events) → holds q (labels ++ [label]) (history ++ stamp p.now events))
    {p q : Pool α} {labels more : List (Label α)} {history later : List (Nat × Event α)}
    (start : holds p labels history) (hmay : p.Allows may more)
    (h : p.replay more = some (q, later)) : holds q (labels ++ more) (history ++ later) := by
  induction more generalizing p labels history later with
  | nil =>
      obtain ⟨rfl, rfl⟩ : p = q ∧ [] = later := by simpa [Pool.replay] using h
      simpa using start
  | cons label more ih =>
      obtain ⟨r, events, rest, hstep, hrest, rfl⟩ := replay_cons h
      obtain ⟨hlabel, hallows⟩ := allows_cons hmay hstep
      have htail := ih (keeps p labels history label r events start hlabel hstep) hallows hrest
      simpa [List.append_assoc] using htail

/-- A replay of steps that may be taken carries a run on. -/
theorem Run.replay_allowed {config : Config} {may : Pool α → Label α → Prop} {p q : Pool α}
    {labels more : List (Label α)} {history later : List (Nat × Event α)}
    (run : Run config may p labels history) (hmay : p.Allows may more)
    (h : p.replay more = some (q, later)) :
    Run config may q (labels ++ more) (history ++ later) :=
  replay_keeps (fun _ _ _ _ _ _ run hmay hstep => Run.next run hmay hstep) run hmay h

theorem allows_of_forall {may : Pool α → Label α → Prop} {labels : List (Label α)}
    (h : ∀ label ∈ labels, ∀ p, may p label) (p : Pool α) : p.Allows may labels := by
  induction labels generalizing p with
  | nil => trivial
  | cons label labels ih =>
      refine ⟨h label (by simp) p, ?_⟩
      split
      · trivial
      · exact ih (fun l hl => h l (by simp [hl])) _

/-- A replay carries a run on. -/
theorem Run.replay {config : Config} {may : Pool α → Label α → Prop} {p q : Pool α}
    {labels more : List (Label α)} {history later : List (Nat × Event α)}
    (run : Run config may p labels history) (hmay : ∀ label ∈ more, ∀ r, may r label)
    (h : p.replay more = some (q, later)) :
    Run config may q (labels ++ more) (history ++ later) :=
  run.replay_allowed (allows_of_forall hmay p) h

def Label.item? : Label α → Option α
  | .push item _ => some item
  | _ => none

/-- The items that have been pushed; the number of a push is its place in this list. -/
def pushedItems (labels : List (Label α)) : List α := labels.filterMap Label.item?

/-- The pushes that have been accepted, in the order in which their items entered the buffer. -/
def accepted (history : List (Nat × Event α)) : List Nat :=
  history.filterMap fun h =>
    match h.2 with
    | .accepted push => some push
    | _ => none

/-- The pushes that have been refused, in the order in which they returned. -/
def refused (history : List (Nat × Event α)) : List Nat :=
  history.filterMap fun h =>
    match h.2 with
    | .refused push _ => some push
    | _ => none

/-- What has been handed to a handler, call by call. -/
def handed (history : List (Nat × Event α)) : List (Entry α) :=
  history.flatMap fun h =>
    match h.2 with
    | .called _ batch _ => batch
    | _ => []

/-- What was in handler calls that have ended, call by call. -/
def ended (history : List (Nat × Event α)) : List (Entry α) :=
  history.flatMap fun h =>
    match h.2 with
    | .handled _ batch _ => batch
    | _ => []

/-- The pushes whose items have been handed to a handler. -/
def handedOver (history : List (Nat × Event α)) : List Nat := (handed history).map Entry.push

/-- The entries that workers hold without having handed them over. -/
def batches (p : Pool α) : List (Entry α) := p.workers.flatMap Worker.batch

/-- The pushes whose items workers hold without having handed them over. -/
def held (p : Pool α) : List Nat := p.batches.map Entry.push

def buffered (p : Pool α) : List Nat := p.buffer.map Entry.push

/-- What a worker has handed to a handler call that has not ended. -/
def Worker.calling (w : Worker α) : List (Entry α) :=
  match w.stance with
  | .handling batch _ => batch
  | _ => []

/-- The entries in handler calls that have not ended. -/
def calls (p : Pool α) : List (Entry α) := p.workers.flatMap Worker.calling

def inHandlers (p : Pool α) : List Nat := p.calls.map Entry.push

/-- The pushes that have been made and have not returned. -/
def underWay (p : Pool α) (history : List (Nat × Event α)) : List Nat :=
  (List.range p.pushes).filter fun n => n ∉ accepted history ∧ n ∉ refused history

end Coordination.Pool
