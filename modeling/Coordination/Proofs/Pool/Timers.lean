import Coordination.Proofs.Pool.Draining
import Coordination.Proofs.Pool.Order

/-!
Idle timers. A worker that got an item and has not handed it over looks at its work again at once,
so where nothing can go on without time moving it waits, by a timer that it set when it got that
item. From then on it takes no other step than those that end the wait: it hands the batch over when
the timer is due, or before that it gets a further item or makes its last call.
-/

namespace Coordination.Pool

variable {α : Type}

section Receipts

def Event.took? (id : Nat) : Event α → Option Nat
  | .took worker push => if worker = id then some push else none
  | _ => none

/-- What a worker took: when, and from which push. -/
def receipts (id : Nat) (history : List (Nat × Event α)) : List (Nat × Nat) :=
  history.filterMap fun h => (h.2.took? id).map fun push => (h.1, push)

theorem receipts_append (id : Nat) (before after : List (Nat × Event α)) :
    receipts id (before ++ after) = receipts id before ++ receipts id after :=
  List.filterMap_append

theorem receipts_silent {id : Nat} {events : List (Event α)} (silent : SilentOf id events)
    (now : Nat) : receipts id (stamp now events) = [] := by
  rw [receipts, stamp, List.filterMap_map, List.filterMap_eq_nil_iff]
  intro e he
  have hother : e.took? id = none := by
    cases e with
    | took worker push => exact if_neg fun hid => silent _ he (congrArg some hid)
    | _ => rfl
  simp [hother]

end Receipts

section Rest

variable {p : Pool α} {w : Worker α}

theorem not_ready_of_resting (resting : p.Resting) (here : p.worker? w.id = some w) :
    w.stance ≠ .ready := by
  intro hready
  have free (batch : List (Entry α)) (last : Bool) : w.stance ≠ .handling batch last := by
    rw [hready]
    exact nofun
  obtain ⟨-, -, -, due, hidle, -⟩ := waits_of_work_none here free (resting (.work w.id) rfl)
  cases hready.symm.trans hidle

end Rest

/-- A worker and what it took so far: if it holds something, its last item is the one that it took
last, at this very time or no longer than the first wait before its timer is due. -/
structure Tended (now : Nat) (w : Worker α) (got : List (Nat × Nat)) : Prop where
  short : w.wait ≤ firstWait
  latest : ∀ e ∈ w.batch.getLast?, ∃ t, got.getLast? = some (t, e.push) ∧
    (w.stance = .ready → t = now) ∧ ∀ due, w.stance = .idle due → due ≤ t + firstWait

section Tended

variable {now : Nat} {w u : Worker α} {got : List (Nat × Nat)}

theorem Tended.empty (short : w.wait ≤ firstWait) (none_held : w.batch = []) :
    Tended now w got where
  short := short
  latest := by simp [none_held]

/-- Each round of a worker tends to its batch. -/
theorem Round.tended {p : Pool α} {events : List (Event α)} (round : Round p w events u)
    (h : Tended p.now w got) : Tended p.now u (got ++ receipts w.id (stamp p.now events)) := by
  have hnext : nextWait ≤ firstWait := by decide
  cases round with
  | gather free e few =>
      have hgot : receipts w.id (stamp p.now [(Event.took w.id e.push : Event α)]) =
          [(p.now, e.push)] := by
        simp [receipts, stamp, Event.took?]
      rw [hgot]
      refine ⟨h.short, fun last hlast => ⟨p.now, ?_, fun _ => rfl, ?_⟩⟩
      · obtain rfl : e = last := by simpa using hlast
        simp
      · intro due hdue
        cases hdue
  | pause ready =>
      have hgot : receipts w.id (stamp p.now [(Event.waits w.id w.wait : Event α)]) = [] := rfl
      rw [hgot, List.append_nil]
      refine ⟨h.short, fun e he => ?_⟩
      obtain ⟨t, hlast, hnow, -⟩ := h.latest e he
      refine ⟨t, hlast, fun hready => ?_, fun due hdue => ?_⟩
      · cases hready
      · obtain rfl : p.now + w.wait = due := Stance.idle.inj hdue
        rw [hnow ready]
        exact Nat.add_le_add_left h.short p.now
  | fill free e many => exact Tended.empty le_rfl rfl
  | lapse idle late none_held => exact Tended.empty hnext none_held
  | handOver idle late some_held => exact Tended.empty hnext rfl
  | last free ended taken => exact Tended.empty h.short rfl
  | back calls none_held => exact Tended.empty h.short none_held

end Tended

section Run

variable {config : Config} {p : Pool α} {labels : List (Label α)} {history : List (Nat × Event α)}

/-- Where time moves only at rest, every worker is tended to. -/
theorem Run.tended (run : Run config Prompt p labels history) {w : Worker α}
    (here : p.worker? w.id = some w) : Tended p.now w (receipts w.id history) := by
  generalize hid : w.id = id at here ⊢
  induction run generalizing w with
  | start now => cases here
  | @next p q labels history label events run hmay hstep ih =>
      rw [receipts_append]
      cases step_fares run.roster.1 hstep id with
      | same worker silent =>
          have hbefore : p.worker? id = some w := worker.symm.trans here
          obtain ⟨short, latest⟩ := ih hid hbefore
          rw [receipts_silent silent, List.append_nil]
          refine ⟨short, fun e he => ?_⟩
          obtain ⟨t, hlast, hready, hidle⟩ := latest e he
          refine ⟨t, hlast, fun hstance => ?_, hidle⟩
          -- A worker that is about to look for work keeps time from moving.
          have hnow : q.now = p.now := by
            have hclock := (step_elapses hstep).now
            cases label with
            | tick later =>
                subst hid
                exact absurd hstance (not_ready_of_resting (hmay later rfl) hbefore)
            | _ => exact hclock
          rw [hnow]
          exact hready hstance
      | comes crew fresh there silent =>
          obtain rfl : newWorker crew id = w := Option.some.inj (there.symm.trans here)
          exact Tended.empty le_rfl rfl
      | round v u before there now round =>
          obtain rfl : u = w := Option.some.inj (there.symm.trans here)
          obtain rfl : v.id = id := (worker?_some before).2
          rw [now]
          exact round.tended (ih rfl before)
      | goes v before there => cases there.symm.trans here

end Run

section Next

/-- When the idle timer of a worker is due, if it has set one. -/
def Worker.due? (w : Worker α) : Option Nat :=
  match w.stance with
  | .idle due => some due
  | _ => none

/-- Time moves only at rest, and not past the next idle timer. -/
def Watchful (p : Pool α) (label : Label α) : Prop :=
  ∀ now, label = .tick now → p.Resting ∧ ∀ w ∈ p.workers, ∀ due ∈ w.due?, now ≤ due

instance decidableWatchful (p : Pool α) : (label : Label α) → Decidable (Watchful p label)
  | .tick now =>
    decidable_of_iff (p.Resting ∧ ∀ w ∈ p.workers, ∀ due ∈ w.due?, now ≤ due)
      ⟨fun h _ heq => Label.tick.inj heq ▸ h, fun h => h now rfl⟩
  | .push .. | .cancelPush .. | .resume .. | .dropPush .. | .addWorkers .. | .stopCrew .. | .work ..
  | .finish .. | .expireBoost .. | .endStay .. | .flush .. | .cancelFlush .. | .giveUpFlush ..
  | .pollFlush .. | .dropFlush .. | .setMaxWorkers .. | .manage .. | .shutdown
  | .terminate => isTrue nofun

/-- What becomes next of a worker that waits with items, until its timer is due. -/
inductive Next (w : Worker α) (due : Nat) (within : Nat → Prop) (q : Pool α)
    (later : List (Nat × Event α)) : Prop where
  | waits (here : q.worker? w.id = some w) (early : q.Resting → q.now < due) (time : within q.now)
    (silent : SilentOf w.id (later.map Prod.snd))
  /-- The timer was due: it handed over all that it had. -/
  | expires (before after : List (Nat × Event α)) (t : Nat)
    (told : later = before ++ (t, .waited w.id) :: (t, .called w.id w.batch false) :: after)
    (late : due ≤ t) (time : within t) (silent : SilentOf w.id (before.map Prod.snd))
  /-- It got a further item before that. -/
  | receives (before after : List (Nat × Event α)) (t push : Nat)
    (told : later = before ++ (t, .took w.id push) :: after) (time : within t)
    (silent : SilentOf w.id (before.map Prod.snd))
  /-- Its token fired or the pool was closed before that: all that it had is in its last call. -/
  | leaves (before after : List (Nat × Event α)) (t : Nat)
    (told : later = before ++ (t, .called w.id w.batch true) :: after) (ended : Over q w.crew)
    (time : within t) (silent : SilentOf w.id (before.map Prod.snd))

variable {p q : Pool α} {w u : Worker α} {due : Nat} {within : Nat → Prop}
  {later : List (Nat × Event α)}

/-- The round that ends the wait. -/
theorem Round.next {events : List (Event α)} (round : Round q w events u)
    (idle : w.stance = .idle due) (some_held : w.batch ≠ []) (time : within q.now)
    (silent : SilentOf w.id (later.map Prod.snd)) {r : Pool α}
    (ends : Over q w.crew → Over r w.crew) :
    Next w due within r (later ++ stamp q.now events) := by
  cases round with
  | gather free e few | fill free e many =>
      exact Next.receives later _ q.now e.push rfl time silent
  | pause ready => cases ready.symm.trans idle
  | lapse waits late none_held => exact absurd none_held some_held
  | handOver waits late =>
      obtain rfl := Stance.idle.inj (waits.symm.trans idle)
      exact Next.expires later [] q.now rfl late time silent
  | last free ended taken =>
      cases taken with
      | nil =>
          rw [List.append_nil]
          exact Next.leaves later [] q.now rfl (ends ended) time silent
      | cons e taken => exact Next.receives later _ q.now e.push rfl time silent
  | back calls => cases calls.symm.trans idle

theorem Next.step (h : Next w due within q later) (roster : Roster q) (given : w.id < q.hired)
    (idle : w.stance = .idle due) (some_held : w.batch ≠ []) {label : Label α} {o : Outcome α}
    (ho : q.step label = some o)
    (keeps : q.worker? w.id = some w → within q.now → within o.1.now) :
    Next w due within o.1 (later ++ stamp q.now o.2) := by
  cases h with
  | waits here early time silent =>
      cases step_fares roster ho w.id with
      | same worker quiet =>
          have hhere : o.1.worker? w.id = some w := worker.trans here
          refine Next.waits hhere (fun resting => ?_) (keeps here time) (silent.append_stamp quiet)
          have free (batch : List (Entry α)) (last : Bool) : w.stance ≠ .handling batch last := by
            rw [idle]
            exact nofun
          obtain ⟨-, -, -, timer, htimer, hnow⟩ :=
            waits_of_work_none hhere free (resting (.work w.id) rfl)
          obtain rfl := Stance.idle.inj (htimer.symm.trans idle)
          exact hnow
      | comes crew fresh => omega
      | round v u before there now round =>
          obtain rfl : w = v := Option.some.inj (here.symm.trans before)
          exact round.next idle some_held time silent fun hover => hover.step roster ho
      | goes v before there none_held =>
          obtain rfl : w = v := Option.some.inj (here.symm.trans before)
          exact absurd none_held some_held
  | expires before after t told late time silent =>
      exact Next.expires before (after ++ stamp q.now o.2) t (by rw [told]; simp) late time silent
  | receives before after t push told time silent =>
      exact Next.receives before (after ++ stamp q.now o.2) t push (by rw [told]; simp) time silent
  | leaves before after t told ended time silent =>
      exact Next.leaves before (after ++ stamp q.now o.2) t (by rw [told]; simp)
        (ended.step roster ho) time silent

/-- What becomes next of a worker that waits with items, whatever happens in the pool. -/
theorem next_of_replay {may : Pool α → Label α → Prop} (roster : Roster p)
    (here : p.worker? w.id = some w) (idle : w.stance = .idle due) (some_held : w.batch ≠ [])
    (early : p.now < due) (start : within p.now)
    (keeps : ∀ (r : Pool α) (label : Label α) (o : Outcome α), may r label →
      r.step label = some o → r.worker? w.id = some w → within r.now → within o.1.now)
    {more : List (Label α)} (hmay : p.Allows may more) (h : p.replay more = some (q, later)) :
    Next w due within q later := by
  have hstart : Roster p ∧ w.id < p.hired ∧ Next w due within p [] :=
    ⟨roster, roster.id_lt w (worker?_some here).1,
      Next.waits here (fun _ => early) start (by simp [SilentOf])⟩
  have hstep (r : Pool α) (_ : List (Label α)) (history : List (Nat × Event α)) (label : Label α)
      (s : Pool α) (events : List (Event α))
      (hr : Roster r ∧ w.id < r.hired ∧ Next w due within r history) (hlabel : may r label)
      (ho : r.step label = some (s, events)) :
      Roster s ∧ w.id < s.hired ∧ Next w due within s (history ++ stamp r.now events) := by
    obtain ⟨hroster, hgiven, hnext⟩ := hr
    exact ⟨(step_moved hroster ho).roster, hgiven.trans_le (step_hired_le ho),
      hnext.step hroster hgiven idle some_held ho (keeps r label _ hlabel ho)⟩
  exact (@replay_keeps α may
    (fun r _ history => Roster r ∧ w.id < r.hired ∧ Next w due within r history)
    hstep p q [] more [] later hstart hmay h).2.2

/-- Where the timer is due and nothing else has come, the batch is handed over. -/
theorem work_due (here : p.worker? w.id = some w) (goes : p.crewStopped w.crew = false)
    (opened : p.closed = false) (empty : p.buffer = []) (idle : w.stance = .idle due)
    (some_held : w.batch ≠ []) (late : due ≤ p.now) :
    p.step (.work w.id) = some (after [.waited w.id]
      (p.call { w with wait := nextWait } w.batch false)) := by
  simp [step, work, here, look, goes, empty, opened, Pool.rest, idle, late, idleFlush, some_held]

theorem replay_due (here : p.worker? w.id = some w) (goes : p.crewStopped w.crew = false)
    (opened : p.closed = false) (empty : p.buffer = []) (idle : w.stance = .idle due)
    (some_held : w.batch ≠ []) (early : p.now < due) :
    ∃ q, p.replay [.tick due, .work w.id] =
      some (q, [(due, .waited w.id), (due, .called w.id w.batch false)]) := by
  have htick : p.step (.tick due) = some ({ p with now := due }, []) := if_pos early.le
  have hwork := work_due (p := { p with now := due }) here goes opened empty idle some_held le_rfl
  refine ⟨(({ p with now := due } : Pool α).call { w with wait := nextWait } w.batch false).1, ?_⟩
  simp only [replay, htick, hwork]
  rfl

end Next

/-- No partial batch is stranded. Where time moves only when nothing else can go on, and nothing can
go on, every worker that is not inside a handler call holds less than a full batch, its token has
not fired and the buffer is not closed. If it holds something it waits with a timer that is due
within the first wait after it took its last item. When that timer is due the whole batch is handed
over; whatever happens in the pool until then, nothing becomes of the batch unless the worker gets a
further item, or makes its last call with all of it because its token has fired or the buffer is
closed; and where time does not move past a timer that is due, one of these has happened by then. -/
theorem no_partial_batch_stranded {config : Config} {p : Pool α} {labels : List (Label α)}
    {history : List (Nat × Event α)} (run : Run config Prompt p labels history)
    (resting : p.Resting) :
    ∀ w ∈ p.workers, (∀ batch last, w.stance ≠ .handling batch last) →
      w.batch.length < max config.batchLength.toNat 1 ∧ p.crewStopped w.crew = false ∧
      p.closed = false ∧
      (w.batch ≠ [] → ∃ due t e, w.stance = .idle due ∧
        w.batch.getLast? = some e ∧ (receipts w.id history).getLast? = some (t, e.push) ∧
        p.now < due ∧ due ≤ t + 300000000 ∧
        (∃ q, p.replay [.tick due, .work w.id] =
          some (q, [(due, .waited w.id), (due, .called w.id w.batch false)])) ∧
        ∀ more q later, p.replay more = some (q, later) →
          Next w due (fun _ => True) q later ∧
          (p.Allows Watchful more → Next w due (· ≤ due) q later)) := by
  intro w hw free
  have here := run.roster.1.worker?_of_mem hw
  obtain ⟨goes, opened, empty, due, idle, early⟩ :=
    waits_of_work_none here free (resting (.work w.id) rfl)
  have few : w.batch.length < config.fullBatch := run.roster.2 ▸ run.trim w hw
  have tended := run.tended here
  refine ⟨few, goes, opened, fun some_held => ?_⟩
  have hlast := List.getLast?_eq_some_getLast some_held
  obtain ⟨t, hgot, -, hdue⟩ := tended.latest _ hlast
  refine ⟨due, t, _, idle, hlast, hgot, early, hdue due idle,
    replay_due here goes opened empty idle some_held early, fun more q later h => ⟨?_, ?_⟩⟩
  · have hany : p.Allows AnyStep more := allows_of_forall (fun _ _ _ => trivial) p
    exact next_of_replay run.roster.1 here idle some_held early trivial
      (fun _ _ _ _ _ _ _ => trivial) hany h
  · intro watchful
    refine next_of_replay run.roster.1 here idle some_held early early.le ?_ watchful h
    intro r label o hlabel ho hthere hle
    have hclock := (step_elapses ho).now
    cases label with
    | tick later =>
        rw [hclock]
        exact (hlabel later rfl).2 w (worker?_some hthere).1 due (by simp [Worker.due?, idle])
    | _ => exact hclock.trans_le hle

/-- Two items fill the batch of one worker, who is still handling them, and a third one comes to the
other worker after a quiet period. -/
def waitingSteps : List (Label Nat) :=
  [.addWorkers 2 none, .push 7 false, .work 0, .push 8 false, .work 0, .work 1, .tick 300000000,
    .work 1, .work 1, .tick 350000000, .push 9 false, .work 1, .work 1]

theorem no_partial_batch_stranded_third : ∃ (p : Pool Nat) (history : List (Nat × Event Nat))
    (w : Worker Nat), Run { batchLength := 2 } Prompt p waitingSteps history ∧ p.Resting ∧
    w ∈ p.workers ∧ w.id = 1 ∧ w.batch = [⟨2, 9⟩] ∧ w.stance = .idle 450000000 ∧
    (receipts 1 history).getLast? = some (350000000, 2) ∧
    p.Allows Watchful [.tick 450000000, .work 1] ∧
    (p.replay [.tick 450000000, .work 1]).map Prod.snd =
      some [(450000000, .waited 1), (450000000, .called 1 [⟨2, 9⟩] false)] ∧
    w.batch.length < 2 ∧ ∀ more q later, p.replay more = some (q, later) →
      p.Allows Watchful more → Next w 450000000 (· ≤ 450000000) q later := by
  have run : Run { batchLength := 2 } Prompt _ ([] ++ waitingSteps) _ :=
    (Run.start 0 8).replay_allowed (by decide) rfl
  obtain ⟨few, -, -, hnext⟩ := no_partial_batch_stranded run (by decide)
    ⟨1, 0, [⟨2, 9⟩], nextWait, .idle 450000000⟩ (by decide) nofun
  obtain ⟨due, t, e, hidle, -, -, -, -, -, hlater⟩ := hnext (List.cons_ne_nil _ _)
  obtain rfl : 450000000 = due := Stance.idle.inj hidle
  exact ⟨_, _, _, run, by decide, by decide, rfl, rfl, rfl, by decide, by decide, rfl, few,
    fun more q later h => (hlater more q later h).2⟩

end Coordination.Pool
