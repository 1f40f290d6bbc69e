import Coordination.Proofs.Pool.Finality
import Coordination.Proofs.Pool.Headcount

/-!
The end of a pool. Once it is closed nothing enters its buffer any more, so what is left in it is
for its workers to take. A worker whose token does not fire goes on until the buffer is empty, and
a worker of a terminated pool takes all that is left; a pool that is closed therefore hands over
everything, as long as it has, or gets, one worker whose token fires with the pool's if at all.
All this goes for workers that can make room for a batch. Where a full batch is too large none of
them ever takes anything, and what has been accepted stays in the buffer.
-/

namespace Coordination.Pool

variable {α : Type}

section Room

theorem works_batchFits {p : Pool α} {w : Worker α} {o : Outcome α} (works : Works p w o) :
    o.1.batchFits = p.batchFits := by
  have hcall (q : Pool α) (batch : List (Entry α)) :
      (q.callLast w batch).1.batchFits = q.batchFits := by
    unfold callLast
    split <;> rfl
  cases works with
  | noRoom holds unfit => rfl
  | drain stopped halted => exact hcall { p with buffer := [] } (w.batch ++ p.buffer)
  | stop stopped runs => exact hcall p w.batch
  | finish goes empty closed => exact hcall p w.batch
  | take goes front =>
      unfold take
      dsimp only
      split <;> rfl
  | wait goes empty opened ready => rfl
  | wake goes empty opened waits late =>
      unfold idleFlush
      dsimp only
      split <;> rfl

/-- Whether a full batch fits is settled when the pool is made. -/
theorem step_batchFits {p : Pool α} {label : Label α} {o : Outcome α} (ho : p.step label = some o) :
    o.1.batchFits = p.batchFits := by
  cases step_acts ho with
  | push item cancelled becomes => cases becomes <;> rfl
  | resume waits becomes => cases becomes <;> rfl
  | work here free works => exact works_batchFits works
  | stopCrew crew =>
      obtain ⟨stopped, hstop⟩ := stopCrew_eq p crew
      rw [hstop]
      rfl
  | @expireBoost d | @endStay d =>
      obtain ⟨stopped, hstop⟩ := stopCrew_eq p d.crew
      rw [hstop]
      rfl
  | addWorkers | finishLast | finish | cancelPush | dropPush | addNobody | startBroke | dropStay
  | flushed | flushFailed | flushWaits | giveUpFlush | pollFlushed | pollAgain | cancelFlush
  | dropFlush | setMaxWorkers | manage | shutdown | terminate | tick => rfl

theorem replay_batchFits {p q : Pool α} {labels : List (Label α)} {history : List (Nat × Event α)}
    (h : p.replay labels = some (q, history)) : q.batchFits = p.batchFits := by
  induction labels generalizing p history with
  | nil =>
      obtain ⟨rfl, -⟩ : p = q ∧ [] = history := by simpa [Pool.replay] using h
      rfl
  | cons label labels ih =>
      obtain ⟨r, events, rest, hstep, hrest, -⟩ := replay_cons h
      exact (ih hrest).trans (step_batchFits hstep)

def Untouched (p : Pool α) : Prop := ∀ w ∈ p.workers, w = newWorker w.crew w.id

/-- A worker that cannot make room for a batch ends with its first step. -/
theorem work_of_unfit {p : Pool α} (unfit : p.batchFits = false) {w : Worker α}
    (here : p.worker? w.id = some w) (start : w = newWorker w.crew w.id) :
    p.work w.id = some (p.exit w) := by
  have hstance : w.stance = .ready := congrArg Worker.stance start
  have hholds : w.batch = [] := congrArg Worker.batch start
  have hlook : p.look w = some (p.exit w) := if_pos (by simp [hholds, unfit])
  simp only [work, here, hstance, hlook]

theorem step_untouched {p : Pool α} (unfit : p.batchFits = false) (h : Untouched p)
    {label : Label α} {o : Outcome α} (ho : p.step label = some o) :
    Untouched o.1 ∧ handed (stamp p.now o.2) = [] := by
  have hnew (count : Nat) (workers : o.1.workers = (p.hire count none).1.workers) :
      Untouched o.1 := by
    intro w hw
    rw [workers] at hw
    rcases mem_hire hw with hw | ⟨i, -, rfl⟩
    · exact h w hw
    · rfl
  have hfree {w : Worker α} {batch : List (Entry α)} {last : Bool} (here : p.worker? w.id = some w)
      (calls : w.stance = .handling batch last) : False := by
    have hstance := congrArg Worker.stance (h w (worker?_some here).1)
    rw [calls] at hstance
    cases hstance
  cases step_acts ho with
  | push item cancelled becomes => cases becomes <;> exact ⟨h, rfl⟩
  | resume waits becomes =>
      cases becomes with
      | boost => exact ⟨hnew _ rfl, rfl⟩
      | refuse | accept | deny | breakOff => exact ⟨h, rfl⟩
  | addWorkers => exact ⟨hnew _ rfl, rfl⟩
  | @work w here free o works =>
      have hexit := work_of_unfit unfit here (h w (worker?_some here).1)
      obtain rfl : p.exit w = o := Option.some.inj (hexit.symm.trans ho)
      exact ⟨fun u hu => h u (List.mem_of_mem_filter hu), rfl⟩
  | finishLast here calls ends => exact (hfree here calls).elim
  | finish here calls => exact (hfree here calls).elim
  | stopCrew crew =>
      obtain ⟨stopped, hstop⟩ := stopCrew_eq p crew
      rw [hstop]
      exact ⟨h, rfl⟩
  | @expireBoost d | @endStay d =>
      obtain ⟨stopped, hstop⟩ := stopCrew_eq p d.crew
      rw [hstop]
      exact ⟨h, rfl⟩
  | cancelPush | dropPush | addNobody | startBroke | dropStay | flushed | flushFailed | flushWaits
  | giveUpFlush | pollFlushed | pollAgain | cancelFlush | dropFlush | setMaxWorkers | manage
  | shutdown | terminate | tick => exact ⟨h, rfl⟩

theorem Run.untouched {config : Config} {may : Pool α → Label α → Prop} {p : Pool α}
    {labels : List (Label α)} {history : List (Nat × Event α)}
    (run : Run config may p labels history) (unfit : p.batchFits = false) :
    Untouched p ∧ handed history = [] := by
  induction run with
  | start now itemBytes => exact ⟨nofun, rfl⟩
  | @next p q labels history label events run hmay hstep ih =>
      have hbefore : p.batchFits = false := (step_batchFits hstep).symm.trans unfit
      obtain ⟨huntouched, hnone⟩ := ih hbefore
      obtain ⟨hkept, hquiet⟩ := step_untouched hbefore huntouched hstep
      refine ⟨hkept, ?_⟩
      rw [handed, List.flatMap_append]
      exact List.append_eq_nil_iff.mpr ⟨hnone, hquiet⟩

/-- Where a full batch does not fit, what has been accepted is in the buffer for good. -/
theorem Run.buffered_eq_of_unfit {config : Config} {may : Pool α → Label α → Prop} {p : Pool α}
    {labels : List (Label α)} {history : List (Nat × Event α)}
    (run : Run config may p labels history) (unfit : p.batchFits = false) :
    handed history = [] ∧ p.buffered = accepted history := by
  obtain ⟨huntouched, hnone⟩ := run.untouched unfit
  refine ⟨hnone, ?_⟩
  have hheld : p.held = [] := List.map_eq_nil_iff.mpr
    (List.flatMap_eq_nil_iff.mpr fun w hw => congrArg Worker.batch (huntouched w hw))
  have hplaces := run.stocked_perm.length_eq
  have hfront := run.accepted_eq
  have hlengths := congrArg List.length hfront
  simp only [hheld, handedOver, hnone, List.map_nil, List.append_nil] at hplaces
  rw [List.length_append] at hlengths
  have htaken : taken history = [] := List.length_eq_zero_iff.mp (by omega)
  rw [hfront, htaken, List.nil_append]

end Room

section Leaving

/-- There is nothing that a worker of the crew has to wait for. -/
def Over (p : Pool α) (crew : Nat) : Prop :=
  p.crewStopped crew = true ∨ p.closed = true ∧ p.buffer = []

theorem Dismissed.isOver {p : Pool α} {w : Worker α} {rest : List (Entry α)}
    (h : Dismissed p w rest) : Over p w.crew := h.imp And.left id

theorem Over.step {p : Pool α} (hroster : Roster p) {crew : Nat} (h : Over p crew)
    {label : Label α} {o : Outcome α} (ho : p.step label = some o) : Over o.1 crew := by
  have hlatched := step_latched ho
  rcases h with hcrew | ⟨hclosed, hempty⟩
  · exact Or.inl (hlatched.crewStopped hcrew)
  · exact Or.inr ⟨hlatched.closed hclosed, closed_buffer_nil hroster hclosed hempty ho⟩

theorem newWorker_stays (crew id : Nat) : ¬ (newWorker crew id : Worker α).Leaving :=
  fun ⟨_, h⟩ => nomatch h

/-- A worker is in its last call only where it has nothing to wait for. -/
def Settled (p : Pool α) : Prop := ∀ w ∈ p.workers, w.Leaving → Over p w.crew

theorem step_settled {p : Pool α} (hroster : Roster p) (h : Settled p) {label : Label α}
    {o : Outcome α} (ho : p.step label = some o) : Settled o.1 := by
  have hold (u : Worker α) (hu : u ∈ p.workers) (hlast : u.Leaving) : Over o.1 u.crew :=
    (h u hu hlast).step hroster ho
  have hnew {count : Nat} {lifetime : Option Duration}
      (hworkers : o.1.workers = (p.hire count lifetime).1.workers) : Settled o.1 := by
    intro u hu hlast
    rw [hworkers] at hu
    rcases mem_hire hu with hu | ⟨i, -, rfl⟩
    · exact hold u hu hlast
    · exact absurd hlast (newWorker_stays _ _)
  cases step_shift ho with
  | stay workers count steady =>
      intro u hu
      rw [workers] at hu
      exact hold u hu
  | hire number lifetime some_come called countable boost workers told => exact hnew workers
  | boost push observed number lifetime granted countable boost workers told => exact hnew workers
  | turn w v here crew last workers count steady =>
      intro u hu hlast
      rw [workers] at hu
      rcases mem_update hu with rfl | hu
      · rw [crew]
        exact (last hlast).isOver.step hroster ho
      · exact hold u hu hlast
  | leave w here why workers boost front steady told =>
      intro u hu
      rw [workers] at hu
      exact hold u (List.mem_of_mem_filter hu)

theorem Run.settled {config : Config} {may : Pool α → Label α → Prop} {p : Pool α}
    {labels : List (Label α)} {history : List (Nat × Event α)}
    (run : Run config may p labels history) : Settled p := by
  induction run with
  | start now => exact fun w hw => absurd hw List.not_mem_nil
  | next run may hstep ih => exact step_settled run.roster.1 ih hstep

end Leaving

section Keeper

/-- The token of the crew fires with the whole pool's, if at all. -/
def Spares (crew : Nat) (p : Pool α) (_ : Label α) : Prop :=
  p.crewStopped crew = true → p.terminated = true

instance decidableSpares (crew : Nat) (p : Pool α) (label : Label α) :
    Decidable (Spares crew p label) :=
  inferInstanceAs (Decidable (p.crewStopped crew = true → p.terminated = true))

/-- The buffer is empty, or a worker of the crew goes on and will see to it. -/
def Kept (crew : Nat) (p : Pool α) : Prop :=
  p.buffer = [] ∨ ∃ w ∈ p.workers, w.crew = crew ∧ ¬ w.Leaving

theorem Dismissed.empty {p : Pool α} {w : Worker α} {rest : List (Entry α)}
    (h : Dismissed p w rest) (spared : p.crewStopped w.crew = true → p.terminated = true)
    (hrest : p.buffer = [] → rest = []) : rest = [] := by
  rcases h with ⟨hstopped, hover⟩ | ⟨-, hempty⟩
  · exact hover (spared hstopped)
  · exact hrest hempty

theorem mem_place {us before after : List (Worker α)} {u w : Worker α}
    (h : us = before ++ w :: after) (hu : u ∈ us) : u = w ∨ u ∈ before ++ after := by
  simpa [h, or_left_comm] using hu

theorem mem_around {before after : List (Worker α)} {u : Worker α} (v : Worker α)
    (hu : u ∈ before ++ after) : u ∈ before ++ v :: after := by
  rcases List.mem_append.mp hu with hu | hu <;> simp [hu]

/-- The keeper of a closed pool does not leave before the buffer is empty, if a batch fits. -/
theorem step_kept {p : Pool α} (hroster : Roster p) (closed : p.closed = true)
    (fits : p.batchFits = true) {crew : Nat} {label : Label α} (spared : Spares crew p label)
    (calm : ∀ id, label ≠ .finish id true)
    (h : Kept crew p) {o : Outcome α} (ho : p.step label = some o) : Kept crew o.1 := by
  have hrest (hempty : p.buffer = []) : o.1.buffer = [] :=
    closed_buffer_nil hroster closed hempty ho
  rcases h with hempty | ⟨u, hu, rfl, hstays⟩
  · exact Or.inl (hrest hempty)
  · have hthere (hu' : u ∈ o.1.workers) : Kept u.crew o.1 := Or.inr ⟨u, hu', rfl, hstays⟩
    cases step_shift ho with
    | stay workers count steady => exact hthere (workers ▸ hu)
    | hire number lifetime some_come called countable boost workers told =>
        exact hthere (workers ▸ List.mem_append_left _ hu)
    | boost push observed number lifetime granted countable boost workers told =>
        exact hthere (workers ▸ List.mem_append_left _ hu)
    | turn w v here crew last workers count steady =>
        obtain ⟨before, after, hp, hq, -⟩ := hroster.place here
        rw [hq] at workers
        rcases mem_place hp hu with rfl | hu
        · -- The keeper goes on, or makes its last call because nothing is left to take.
          by_cases hlast : v.Leaving
          · exact Or.inl ((last hlast).empty spared hrest)
          · refine Or.inr ⟨v, ?_, crew, hlast⟩
            rw [workers]
            simp
        · refine hthere ?_
          rw [workers]
          exact mem_around v hu
    | leave w here why workers boost front steady told =>
        obtain ⟨before, after, hp, -, hq⟩ := hroster.place here
        rcases mem_place hp hu with rfl | hu
        · rcases why with hlast | hpanic | hdismissed | hunfit
          · exact absurd hlast hstays
          · exact absurd hpanic (calm u.id)
          · exact Or.inl (hdismissed.empty spared hrest)
          · rw [fits] at hunfit
            cases hunfit
        · exact hthere (workers.trans hq ▸ hu)

/-- A crew that starts keeps the pool. -/
theorem started_kept {p : Pool α} {label : Label α} {o : Outcome α} (ho : p.step label = some o)
    {crew count : Nat} {lifetime : Option Duration}
    (hstart : .crewStarted crew count lifetime ∈ o.2) : Kept crew o.1 := by
  have hnew {number : Nat} {stay : Option Duration} (some_come : 0 < number)
      (hworkers : o.1.workers = (p.hire number stay).1.workers) : Kept p.crews o.1 := by
    refine Or.inr ⟨newWorker p.crews (p.hired + 0), ?_, rfl, newWorker_stays _ _⟩
    rw [hworkers]
    exact List.mem_append_right _
      (List.mem_map_of_mem (List.mem_range.mpr some_come))
  cases step_shift ho with
  | stay workers count steady => exact (steady _ hstart).elim
  | hire number stay some_come called countable boost workers told =>
      have hcrew : crew = p.crews := by
        simp only [told, List.mem_singleton, Event.crewStarted.injEq] at hstart
        exact hstart.1
      rw [hcrew]
      exact hnew some_come workers
  | boost push observed number stay granted countable boost workers told =>
      have hcrew : crew = p.crews := by
        simp only [told, List.mem_cons, reduceCtorEq, List.not_mem_nil, or_false, false_or,
          Event.crewStarted.injEq] at hstart
        exact hstart.1
      rw [hcrew]
      exact hnew (Boost.Controller.boost_counted granted).1 workers
  | turn w v here crew last workers count steady => exact (steady _ hstart).elim
  | leave w here why workers boost front steady told =>
      rw [told] at hstart
      rcases List.mem_append.mp hstart with hfront | hexit
      · exact (steady _ hfront).elim
      · simp at hexit

/-- A closed pool with a keeper, present or to come, is kept to the end. -/
theorem Run.kept {config : Config} {q p : Pool α} {before after : List (Label α)}
    {past later : List (Nat × Event α)} {crew : Nat} (run : Run config AnyStep q before past)
    (hlater : q.replay after = some (p, later)) (closed : q.closed = true)
    (fits : q.batchFits = true) (calm : ∀ id, .finish id true ∉ after)
    (spared : q.Allows (Spares crew) after)
    (keeper : Kept crew q ∨ ∃ t count lifetime, (t, .crewStarted crew count lifetime) ∈ later) :
    Kept crew p := by
  induction after generalizing q before past later with
  | nil =>
      obtain ⟨rfl, rfl⟩ : q = p ∧ [] = later := by simpa [Pool.replay] using hlater
      simpa using keeper
  | cons label after ih =>
      obtain ⟨r, events, rest, hstep, hrest, rfl⟩ := replay_cons hlater
      obtain ⟨hspared, hspares⟩ := allows_cons spared hstep
      have hlabel : ∀ id, label ≠ .finish id true := by
        rintro id rfl
        exact calm id List.mem_cons_self
      have hcalm : ∀ id, .finish id true ∉ after := fun id h => calm id (List.mem_cons_of_mem _ h)
      have hkeeper : Kept crew r ∨
          ∃ t count lifetime, (t, .crewStarted crew count lifetime) ∈ rest := by
        rcases keeper with hkept | ⟨t, count, lifetime, hstart⟩
        · exact Or.inl (step_kept run.roster.1 closed fits hspared hlabel hkept hstep)
        · rcases List.mem_append.mp hstart with hnow | hthen
          · obtain ⟨-, he⟩ := mem_stamp.mp hnow
            exact Or.inl (started_kept hstep he)
          · exact Or.inr ⟨t, count, lifetime, hthen⟩
      exact ih (Run.next run trivial hstep) hrest ((step_latched hstep).closed closed)
        ((step_batchFits hstep).trans fits) hcalm hspares hkeeper

/-- A worker whose token has not fired keeps the pool, unless it has found nothing left. -/
theorem Run.kept_of_running {config : Config} {may : Pool α → Label α → Prop} {p : Pool α}
    {labels : List (Label α)} {history : List (Nat × Event α)}
    (run : Run config may p labels history) {w : Worker α} (hw : w ∈ p.workers)
    (goes : p.crewStopped w.crew = false) : Kept w.crew p := by
  by_cases hlast : w.Leaving
  · rcases run.settled w hw hlast with hstopped | ⟨-, hempty⟩
    · exact absurd hstopped (Bool.eq_false_iff.mp goes)
    · exact Or.inl hempty
  · exact Or.inr ⟨w, hw, rfl, hlast⟩

/-- Closing a pool tells nothing and changes nothing for its keeper. -/
theorem closing_step {p q : Pool α} {close : Label α} {events : List (Event α)} (crew : Nat)
    (hclose : close = .shutdown ∨ close = .terminate) (hstep : p.step close = some (q, events)) :
    q.closed = true ∧ events = [] ∧ (Kept crew q ↔ Kept crew p) ∧
      (close = .terminate → q.terminated = true) := by
  rcases hclose with rfl | rfl
  · obtain ⟨rfl, rfl⟩ := Prod.mk.inj (Option.some.inj hstep)
    exact ⟨rfl, rfl, Iff.rfl, nofun⟩
  · obtain ⟨rfl, rfl⟩ := Prod.mk.inj (Option.some.inj hstep)
    exact ⟨rfl, rfl, Iff.rfl, fun _ => rfl⟩

/-- Where the whole pool's token has fired, no crew can be stopped on its own. -/
theorem terminated_spares {p : Pool α} (halted : p.terminated = true) (crew : Nat)
    (labels : List (Label α)) : p.Allows (Spares crew) labels := by
  induction labels generalizing p with
  | nil => trivial
  | cons label labels ih =>
      refine ⟨fun _ => halted, ?_⟩
      split
      · trivial
      · rename_i q events hstep
        exact ih ((step_latched hstep).terminated halted)

end Keeper

section Deserted

variable {config : Config} {may : Pool α → Label α → Prop} {p : Pool α} {labels : List (Label α)}
  {history : List (Nat × Event α)}

/-- Without workers, what is pending is in the buffer or belongs to a push that has not returned. -/
theorem Run.pending_of_no_worker (run : Run config may p labels history)
    (hworkers : p.workers = []) :
    p.pending = (underWay p history).length + p.buffer.length := by
  have hheld : p.held = [] := by simp [held, batches, hworkers]
  have hinside : p.inHandlers = [] := by simp [inHandlers, calls, hworkers]
  have hpending := run.pending_eq
  rwa [hheld, hinside, List.length_nil, Nat.cast_zero, add_zero, add_zero] at hpending

/-- Without workers, every accepted item that is not in the buffer has been handed over once. -/
theorem Run.handed_once (run : Run config may p labels history) (hworkers : p.workers = [])
    (hempty : p.buffer = []) : ∀ n ∈ accepted history, (handedOver history).count n = 1 := by
  intro n hn
  have hheld : p.held = [] := by simp [held, batches, hworkers]
  have hbuffered : p.buffered = [] := by simp [buffered, hempty]
  have hplaces := run.stocked_perm
  rw [hbuffered, hheld, List.nil_append, List.nil_append] at hplaces
  rw [hplaces.count_eq]
  exact List.count_eq_one_of_mem (List.nodup_append.mp run.accepted_refused_nodup).1 hn

end Deserted

/-- A pool that is shut down or terminated hands everything over if a full batch fits, and only
then. It needs one crew with a worker whose token has not fired, or one that is started afterwards;
after a shutdown the token of that crew must not fire but with the whole pool's, and no handler call
may panic. Then nothing has been accepted since the call, and once all workers have ended nothing is
left in the buffer and every accepted item has been handed to a handler once; what is still counted
as pending are the pushes that have not returned, so nothing is once all have. Where a batch does
not fit the workers end all the same, but nothing has ever been handed over: all that was accepted
is in the buffer, and still counted. -/
theorem closed_pool_drains {config : Config} {q p : Pool α} {before after : List (Label α)}
    {past later : List (Nat × Event α)} {close : Label α} (crew : Nat)
    (run : Run config AnyStep q before past) (hclose : close = .shutdown ∨ close = .terminate)
    (hlater : q.replay (close :: after) = some (p, later))
    (calm : ∀ id, .finish id true ∉ after)
    (keeper : (∃ w ∈ q.workers, w.crew = crew ∧ q.crewStopped crew = false) ∨
      ∃ t count lifetime, (t, .crewStarted crew count lifetime) ∈ later)
    (spared : close = .shutdown → ({ q with closed := true } : Pool α).Allows (Spares crew) after)
    (hworkers : p.workers = []) :
    accepted later = [] ∧
    (q.batchFits = true → p.buffer = [] ∧
      (∀ n ∈ accepted (past ++ later), (handedOver (past ++ later)).count n = 1) ∧
      p.pending = (underWay p (past ++ later)).length) ∧
    (q.batchFits = false → handed (past ++ later) = [] ∧
      p.buffered = accepted (past ++ later) ∧
      p.pending = (underWay p (past ++ later)).length + p.buffer.length) := by
  have whole : Run config AnyStep p (before ++ close :: after) (past ++ later) :=
    run.replay (fun _ _ _ => trivial) hlater
  have hpending := whole.pending_of_no_worker hworkers
  obtain ⟨r, events, rest, hstep, hrest, rfl⟩ := replay_cons hlater
  obtain ⟨hclosed, rfl, hsame, hhalted⟩ := closing_step crew hclose hstep
  have closing := Run.next run trivial hstep
  have hspares : r.Allows (Spares crew) after := by
    rcases hclose with rfl | rfl
    · obtain ⟨rfl, -⟩ := Prod.mk.inj (Option.some.inj hstep)
      exact spared rfl
    · exact terminated_spares (hhalted rfl) crew after
  have hkeeper : Kept crew r ∨ ∃ t count lifetime, (t, .crewStarted crew count lifetime) ∈ rest := by
    rcases keeper with ⟨w, hw, rfl, hgoes⟩ | hstart
    · exact Or.inl (hsame.mpr (run.kept_of_running hw hgoes))
    · exact Or.inr hstart
  refine ⟨(closing.shut hclosed hrest).nothing_enters, ?_, ?_⟩
  · intro fits
    have hkept :=
      closing.kept hrest hclosed ((step_batchFits hstep).trans fits) calm hspares hkeeper
    -- Without workers there is no keeper left, so the buffer must be empty.
    have hempty : p.buffer = [] := by
      rcases hkept with hempty | ⟨w, hw, -⟩
      · exact hempty
      · rw [hworkers] at hw
        exact absurd hw List.not_mem_nil
    refine ⟨hempty, whole.handed_once hworkers hempty, ?_⟩
    rw [hpending, hempty, List.length_nil, Nat.cast_zero, add_zero]
  · intro unfit
    obtain ⟨hnever, hleft⟩ := whole.buffered_eq_of_unfit ((replay_batchFits hlater).trans unfit)
    exact ⟨hnever, hleft, hpending⟩

/-- A worker holds one item, another is in the buffer, and a push waits for room. -/
def crowdedSteps : List (Label Nat) :=
  [.addWorkers 1 none, .push 10 false, .work 0, .push 20 false, .push 30 false]

/-- The push is refused. A second crew stops at once; the first takes the last item, and the pool is
terminated while it is inside the handler call. -/
def closingSteps : List (Label Nat) :=
  [.resume 2, .addWorkers 1 none, .stopCrew 1, .work 1, .work 0, .terminate, .finish 0 false,
    .work 0]

theorem closed_pool_drains_crowded : ∃ (q p : Pool Nat) (past later : List (Nat × Event Nat)),
    Run narrowConfig AnyStep q crowdedSteps past ∧
    q.replay (.shutdown :: closingSteps) = some (p, later) ∧ q.batchFits = true ∧
    q.held = [0] ∧ q.buffered = [1] ∧ underWay q past = [2] ∧ p.workers = [] ∧
    underWay p (past ++ later) = [] ∧ refused later = [2] ∧
    accepted later = [] ∧ p.buffer = [] ∧
    (∀ n ∈ accepted (past ++ later), (handedOver (past ++ later)).count n = 1) ∧
    p.pending = 0 := by
  have run : Run narrowConfig AnyStep _ ([] ++ crowdedSteps) _ :=
    (Run.start 0 8).replay (fun _ _ _ => trivial) rfl
  have calm : ∀ id, .finish id true ∉ closingSteps := by simp [closingSteps]
  obtain ⟨hnone, hdrained, -⟩ := closed_pool_drains 0 run (Or.inl rfl)
    (show Pool.replay _ (.shutdown :: closingSteps) = some (_, _) from rfl) calm
    (Or.inl (by decide)) (fun _ => by decide) rfl
  obtain ⟨hempty, honce, hpending⟩ := hdrained (by decide)
  exact ⟨_, _, _, _, run, rfl, by decide, by decide, by decide, by decide, by decide, by decide,
    by decide, hnone, hempty, honce, hpending⟩

/-- Batches of as many items as a word can count. -/
def vastConfig : Config where
  batchLength := 18446744073709551615

/-- A worker comes to a pool that was shut down with an item in its buffer, and ends without having
taken it: the full batch that it makes room for is too large. -/
theorem closed_pool_keeps_item :
    ¬ ∀ (config : Config) (q p : Pool Nat) (before after : List (Label Nat))
        (past later : List (Nat × Event Nat)) (crew : Nat),
      Run config AnyStep q before past → q.replay (.shutdown :: after) = some (p, later) →
      (∀ id, .finish id true ∉ after) →
      (∃ t count lifetime, (t, .crewStarted crew count lifetime) ∈ later) →
      ({ q with closed := true } : Pool Nat).Allows (Spares crew) after →
      p.workers = [] → underWay p (past ++ later) = [] → p.buffer = [] ∧ p.pending = 0 := by
  intro h
  have run : Run vastConfig AnyStep _ ([] ++ [.push 7 false]) _ :=
    (Run.start 0 8).replay (fun _ _ _ => trivial) rfl
  have hdrained := h vastConfig _ _ _ [.addWorkers 1 none, .work 0] _ _ 0 run rfl (by simp)
    ⟨0, 1, none, by decide⟩ (by decide) rfl (by decide)
  revert hdrained
  decide

end Coordination.Pool
