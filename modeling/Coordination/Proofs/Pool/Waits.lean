import Coordination.Proofs.Pool.Pending
import Coordination.Proofs.Pool.Rounds

/-!
How long workers wait. An idle wait that passes without an item makes the waits after it short, and
only a full batch makes them long again. So after an item that ends a quiet period without filling a
batch a worker begins a short wait, where the first wait of a new period is due.
-/

namespace Coordination.Pool

variable {α : Type}

section Counting

/-- What an event adds to the count of items that a worker got since its idle timer ran out. -/
def Event.count (id : Nat) (got : Option Nat) : Event α → Option Nat
  | .took worker _ => if worker = id then got.map (· + 1) else got
  | .waited worker => if worker = id then some 0 else got
  | _ => got

/-- How many items a worker got since its idle timer last ran out, if it ever did. -/
def received (id : Nat) (history : List (Nat × Event α)) : Option Nat :=
  history.foldl (fun got h => h.2.count id got) none

/-- The length of the idle wait that is due: the first one, unless the worker got nothing since its
idle timer last ran out. -/
def dueWait : Option Nat → Nat
  | some 0 => 100000000
  | _ => 300000000

def recount (id : Nat) (got : Option Nat) (events : List (Event α)) : Option Nat :=
  events.foldl (Event.count id) got

theorem received_append_stamp (id now : Nat) (history : List (Nat × Event α))
    (events : List (Event α)) :
    received id (history ++ stamp now events) = recount id (received id history) events := by
  rw [received, List.foldl_append, stamp, List.foldl_map]
  rfl

theorem recount_silent {id : Nat} {events : List (Event α)} (silent : SilentOf id events)
    (got : Option Nat) : recount id got events = got := by
  induction events with
  | nil => rfl
  | cons e events ih =>
      obtain ⟨he, hrest⟩ := List.forall_mem_cons.mp silent
      have hcount : e.count id got = got := by
        cases e with
        | took worker push => exact if_neg fun hid => he (congrArg some hid)
        | waited worker => exact if_neg fun hid => he (congrArg some hid)
        | _ => rfl
      rw [recount, List.foldl_cons, hcount]
      exact ih hrest

theorem received_silent {id : Nat} {history : List (Nat × Event α)}
    (silent : SilentOf id (history.map Prod.snd)) : received id history = none := by
  rw [← recount_silent silent none, recount, List.foldl_map]
  rfl

end Counting

/-- The wait that a worker goes by, and what it holds, by what it got since its idle timer last ran
out. -/
inductive Paced (full : Nat) (w : Worker α) : Option Nat → Prop where
  /-- The timer has not run out yet. -/
  | unexpired (wait : w.wait = firstWait) : Paced full w none
  /-- The worker got less than a full batch, and holds all of it. -/
  | short {k : Nat} (held : w.batch.length = k) (few : k < full) (wait : w.wait = nextWait) :
    Paced full w (some k)
  /-- It got enough to fill a batch. -/
  | long {k : Nat} (many : full ≤ k) (wait : w.wait = firstWait) : Paced full w (some k)

/-- Each round of a worker that goes on keeps the pace of its waits. -/
theorem Round.paced {p : Pool α} {w u : Worker α} {events : List (Event α)} {got : Option Nat}
    (round : Round p w events u) (h : Paced p.config.fullBatch w got) (stays : ¬ u.Leaving) :
    Paced p.config.fullBatch u (recount w.id got events) := by
  have hfull := p.config.fullBatch_pos
  cases round with
  | gather free e few =>
      have hgot : recount w.id got [(Event.took w.id e.push : Event α)] = got.map (· + 1) :=
        if_pos rfl
      rw [hgot]
      cases h with
      | unexpired wait => exact Paced.unexpired wait
      | short held fewer wait =>
          subst held
          exact Paced.short List.length_append few wait
      | long many wait => exact Paced.long (Nat.le_succ_of_le many) wait
  | fill free e full =>
      have hgot : recount w.id got [.took w.id e.push, .called w.id (w.batch ++ [e]) false] =
          got.map (· + 1) := if_pos rfl
      rw [hgot]
      cases h with
      | unexpired wait => exact Paced.unexpired rfl
      | short held fewer wait =>
          -- All that it got since then is in the batch that is full now.
          subst held
          exact Paced.long full rfl
      | long many wait => exact Paced.long (Nat.le_succ_of_le many) rfl
  | lapse idle late none_held =>
      have hgot : recount w.id got [(Event.waited w.id : Event α)] = some 0 := if_pos rfl
      rw [hgot]
      exact Paced.short (congrArg List.length none_held) hfull rfl
  | handOver idle late some_held =>
      have hgot : recount w.id got [.waited w.id, .called w.id w.batch false] = some 0 := if_pos rfl
      rw [hgot]
      exact Paced.short rfl hfull rfl
  | last free ended taken => exact absurd ⟨_, rfl⟩ stays
  | pause ready | back calls none_held =>
      cases h with
      | unexpired wait => exact Paced.unexpired wait
      | short held fewer wait => exact Paced.short held fewer wait
      | long many wait => exact Paced.long many wait

section Run

variable {config : Config} {may : Pool α → Label α → Prop} {p : Pool α} {labels : List (Label α)}
  {history : List (Nat × Event α)}

/-- A worker that is not in its last call waits by what it got since its idle timer ran out. -/
theorem Run.paced (run : Run config may p labels history) {w : Worker α}
    (here : p.worker? w.id = some w) (stays : ¬ w.Leaving) :
    Paced config.fullBatch w (received w.id history) := by
  generalize hid : w.id = id at here ⊢
  induction run generalizing w with
  | start now => cases here
  | @next p q labels history label events run hmay hstep ih =>
      rw [received_append_stamp]
      cases step_fares run.roster.1 hstep id with
      | same worker silent =>
          rw [recount_silent silent]
          exact ih stays hid (worker.symm.trans here)
      | comes crew fresh there silent =>
          obtain rfl : newWorker crew id = w := Option.some.inj (there.symm.trans here)
          rw [recount_silent silent, received_silent (run.silent_of_fresh fresh)]
          exact Paced.unexpired rfl
      | round v u before there now round =>
          obtain rfl : u = w := Option.some.inj (there.symm.trans here)
          obtain rfl : v.id = id := (worker?_some before).2
          have hpaced := ih round.stays rfl before
          rw [← run.roster.2] at hpaced ⊢
          exact round.paced hpaced stays
      | goes v before there => cases there.symm.trans here

/-- A worker begins an idle wait in a round in which nothing else happens. -/
theorem Run.waits_origin (run : Run config may p labels history)
    {before after : List (Nat × Event α)} {t id span : Nat}
    (told : history = before ++ (t, .waits id span) :: after) :
    ∃ q done w, Run config may q done before ∧ q.worker? w.id = some w ∧ w.id = id ∧
      w.stance = .ready ∧ w.wait = span := by
  obtain ⟨q, done, past, label, o, front, back, hrun, -, hstep, hstamp, rfl⟩ := run.origin told
  have hmem : Event.waits id span ∈ o.2 := by
    have hin : (t, Event.waits id span) ∈ stamp q.now o.2 := by simp [hstamp]
    exact (mem_stamp.mp hin).2
  cases step_fares hrun.roster.1 hstep id with
  | same worker silent | comes crew fresh there silent => exact absurd rfl (silent _ hmem)
  | goes w here there none_held htold =>
      rcases htold with htold | ⟨batch, panicked, htold⟩ <;> simp [htold] at hmem
  | round w u here there now round =>
      obtain ⟨hin, hid⟩ := worker?_some here
      generalize hevents : o.2 = events at round hmem hstamp
      cases round with
      | pause ready =>
          obtain ⟨-, rfl⟩ : id = w.id ∧ span = w.wait := by simpa using hmem
          have hfront : front = [] := by
            have hlength := congrArg List.length hstamp
            simp only [stamp, List.length_map, List.length_append, List.length_cons,
              List.length_nil] at hlength
            exact List.length_eq_zero_iff.mp (by omega)
          rw [hfront, List.append_nil]
          exact ⟨q, done, w, hrun, hid ▸ here, hid, ready, rfl⟩
      | gather | fill | lapse | handOver | last | back => simp at hmem

/-- How long an idle wait is. It is the first wait if the worker's idle timer has not run out yet or
the worker got enough for a full batch since then, and the next wait otherwise. So it is the wait
that is due unless the worker got something since its idle timer last ran out, but not enough for a
full batch: then it is the next wait where the first one is due. -/
theorem idle_wait_due_iff (run : Run config may p labels history)
    {before after : List (Nat × Event α)} {t id span : Nat}
    (told : history = before ++ (t, .waits id span) :: after) :
    (span = if ∀ k ∈ received id before, max config.batchLength.toNat 1 ≤ k then 300000000
      else 100000000) ∧
    (span = dueWait (received id before) ↔
      ∀ k ∈ received id before, k = 0 ∨ max config.batchLength.toNat 1 ≤ k) := by
  obtain ⟨q, done, w, hrun, here, rfl, ready, rfl⟩ := run.waits_origin told
  have stays : ¬ w.Leaving := by
    rintro ⟨batch, hleaving⟩
    cases ready.symm.trans hleaving
  have hfull : max config.batchLength.toNat 1 = config.fullBatch := rfl
  have hpos := config.fullBatch_pos
  have hpaced := hrun.paced here stays
  rw [hfull]
  generalize received w.id before = got at hpaced ⊢
  cases hpaced with
  | unexpired wait => simp [wait, firstWait, dueWait]
  | @short k held few wait =>
      have hlt : ¬ config.fullBatch ≤ k := not_le.mpr few
      cases k <;> simp [wait, nextWait, dueWait, hlt]
  | @long k many wait =>
      cases k with
      | zero => omega
      | succ k => simp [wait, firstWait, dueWait, many]

end Run

/-- A worker whose idle timer ran out gets two items one by one: they fill a batch, so its next wait
is long again. -/
def refillSteps : List (Label Nat) :=
  [.addWorkers 1 none, .work 0, .tick 300000000, .work 0, .work 0, .tick 350000000,
    .push 7 false, .work 0, .work 0, .push 8 false, .work 0, .finish 0 false, .work 0]

def refillHistory : List (Nat × Event Nat) :=
  [(0, .crewStarted 0 1 none), (0, .waits 0 300000000), (300000000, .waited 0),
    (300000000, .waits 0 100000000), (350000000, .accepted 0), (350000000, .took 0 0),
    (350000000, .waits 0 100000000), (350000000, .accepted 1), (350000000, .took 0 1),
    (350000000, .called 0 [⟨0, 7⟩, ⟨1, 8⟩] false), (350000000, .handled 0 [⟨0, 7⟩, ⟨1, 8⟩] false)]

theorem idle_wait_due_iff_refilled : ∃ p : Pool Nat,
    Run { batchLength := 2 } Prompt p refillSteps
      (refillHistory ++ [(350000000, .waits 0 300000000)]) ∧
    received 0 refillHistory = some 2 ∧ 300000000 = dueWait (received 0 refillHistory) := by
  have run : Run { batchLength := 2 } Prompt _ ([] ++ refillSteps)
      ([] ++ (refillHistory ++ [(350000000, .waits 0 300000000)])) :=
    (Run.start 0 8).replay_allowed (by decide) rfl
  have hgot : received 0 refillHistory = some 2 := rfl
  refine ⟨_, run, hgot, (idle_wait_due_iff run rfl).2.mpr ?_⟩
  rw [hgot]
  simp

/-- A wait that begins after an item is short where a quiet period came before the item, and where
that item does not fill the batch. -/
theorem wait_after_item_short :
    ¬ ∀ (config : Config) (p : Pool Nat) (labels : List (Label Nat))
        (history before after : List (Nat × Event Nat)) (t id span : Nat),
      Run config Prompt p labels history → history = before ++ (t, .waits id span) :: after →
      span = dueWait (received id before) := by
  intro h
  have run : Run {} Prompt _ ([] ++ refillSteps.take 9)
      ([] ++ (refillHistory.take 6 ++ [(350000000, .waits 0 100000000)])) :=
    (Run.start 0 8).replay_allowed (by decide) rfl
  have hwait := h {} _ _ _ _ _ _ _ _ run rfl
  revert hwait
  decide

end Coordination.Pool
