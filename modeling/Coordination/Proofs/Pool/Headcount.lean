import Mathlib.Algebra.BigOperators.Group.List.Basic
import Coordination.Proofs.Boost.Decision
import Coordination.Proofs.Pool.Motion
import Coordination.Proofs.Pool.Staff

/-!
The count of workers. It is kept apart from the workers themselves: raised before a crew starts,
by whoever starts it, and lowered by each worker on its way out, also when a panic ends it. The
two agree because a step that starts a crew counts it once, and a step that ends a worker ends one
that is there. So the count never runs below zero, and a boost, which goes by the count, never
leads past the limit that is in force when it is granted.
-/

namespace Coordination

namespace Boost.Controller

/-- A boost is counted when it is granted, and leads to the limit at most. -/
theorem boost_counted {s : Controller} {observed lifetime : Duration} {n : Nat}
    (h : (s.blocked observed).2 = .boost n lifetime) :
    0 < n ∧ (s.blocked observed).1.workers = s.workers + n ∧
      (∀ limit, s.maxWorkers = some limit → s.workers + n ≤ limit) ∧ s.workers + n < wordSize := by
  obtain ⟨⟨-, -, hpos⟩, hcounts, rfl, -, hnew⟩ := boost_cases h
  exact ⟨hpos, by rw [hnew], (fits_grant hpos).2, hcounts⟩

/-- Other workers are counted if they can be. -/
theorem started_counted {s : Controller} {n : Nat} (h : s.countable n = true) :
    (s.started n).workers = s.workers + n ∧ s.workers + n < wordSize := by
  rw [started, if_pos h]
  exact ⟨rfl, of_decide_eq_true h⟩

end Boost.Controller

namespace Pool

variable {α : Type}

def Event.starts : Event α → Nat
  | .crewStarted _ count _ => count
  | _ => 0

def Event.ends : Event α → Nat
  | .exited _ _ => 1
  | _ => 0

def workersStarted (history : List (Nat × Event α)) : Nat :=
  (history.map fun h => h.2.starts).sum

def workersEnded (history : List (Nat × Event α)) : Nat :=
  (history.map fun h => h.2.ends).sum

theorem workersStarted_append (h k : List (Nat × Event α)) :
    workersStarted (h ++ k) = workersStarted h + workersStarted k := by
  simp [workersStarted]

theorem workersEnded_append (h k : List (Nat × Event α)) :
    workersEnded (h ++ k) = workersEnded h + workersEnded k := by
  simp [workersEnded]

theorem Event.Steady.none {e : Event α} (h : e.Steady) : e.starts = 0 ∧ e.ends = 0 := by
  unfold Event.Steady at h
  split at h <;> simp_all [Event.starts, Event.ends]

theorem steady_none (now : Nat) {events : List (Event α)} (h : ∀ e ∈ events, e.Steady) :
    workersStarted (stamp now events) = 0 ∧ workersEnded (stamp now events) = 0 := by
  constructor
  · refine List.sum_eq_zero fun n hn => ?_
    simp only [stamp, List.map_map] at hn
    obtain ⟨e, he, rfl⟩ := List.mem_map.mp hn
    exact (h e he).none.1
  · refine List.sum_eq_zero fun n hn => ?_
    simp only [stamp, List.map_map] at hn
    obtain ⟨e, he, rfl⟩ := List.mem_map.mp hn
    exact (h e he).none.2

/-- The count of a pool is that of its workers. -/
def Counts (p : Pool α) : Prop := p.boost.workers = p.workers.length

/-- A step by which so many workers come and so many go, by themselves, by the count, and by what
the step tells. -/
structure Shifts (p : Pool α) (o : Outcome α) (come go : Nat) : Prop where
  workers : o.1.workers.length + go = p.workers.length + come
  count : o.1.boost.workers + go = p.boost.workers + come
  started : ∀ now, workersStarted (stamp now o.2) = come
  ended : ∀ now, workersEnded (stamp now o.2) = go

theorem hire_length (p : Pool α) (count : Nat) (lifetime : Option Duration) :
    (p.hire count lifetime).1.workers.length = p.workers.length + count := by
  simp [hire]

/-- The count follows the workers. -/
theorem step_shifts {p : Pool α} (hroster : Roster p) (hcounts : Counts p) {label : Label α}
    {o : Outcome α} (ho : p.step label = some o) : ∃ come go, Shifts p o come go := by
  cases step_shift ho with
  | stay workers count steady =>
      refine ⟨0, 0, congrArg List.length workers, count, ?_, ?_⟩
      · exact fun now => (steady_none now steady).1
      · exact fun now => (steady_none now steady).2
  | hire number lifetime some_come called countable boost workers told =>
      refine ⟨number, 0, ?_, ?_, ?_, ?_⟩
      · rw [workers]
        exact hire_length p number lifetime
      · rw [boost]
        exact (Boost.Controller.started_counted countable).1
      · intro now
        rw [told]
        rfl
      · intro now
        rw [told]
        rfl
  | boost push observed number lifetime granted countable boost workers told =>
      refine ⟨number, 0, ?_, ?_, ?_, ?_⟩
      · rw [workers]
        exact hire_length p number (some lifetime)
      · rw [boost]
        exact (Boost.Controller.boost_counted granted).2.1
      · intro now
        rw [told]
        exact Nat.zero_add number
      · intro now
        rw [told]
        rfl
  | turn w v here crew last workers count steady =>
      obtain ⟨before, after, hp, hq, -⟩ := hroster.place here
      refine ⟨0, 0, ?_, count, ?_, ?_⟩
      · rw [workers, hp, hq]
        simp
      · exact fun now => (steady_none now steady).1
      · exact fun now => (steady_none now steady).2
  | leave w here why workers boost front steady told =>
      obtain ⟨before, after, hp, -, hq⟩ := hroster.place here
      have hlength : o.1.workers.length + 1 = p.workers.length := by
        rw [workers, hp, hq, List.length_append, List.length_append, List.length_cons, add_assoc]
      -- The worker that goes is one of those counted, so there is something to take away.
      have hcount : o.1.boost.workers + 1 = p.boost.workers := by
        rw [boost]
        change p.boost.workers - 1 + 1 = p.boost.workers
        unfold Counts at hcounts
        omega
      refine ⟨0, 1, hlength, hcount, ?_, ?_⟩
      · intro now
        rw [told, stamp_append, workersStarted_append, (steady_none now steady).1]
        rfl
      · intro now
        rw [told, stamp_append, workersEnded_append, (steady_none now steady).2]
        rfl

/-- The count is that of the workers that are there, and of those started and not ended. -/
theorem Run.counts {config : Config} {may : Pool α → Label α → Prop} {p : Pool α}
    {labels : List (Label α)} {history : List (Nat × Event α)}
    (run : Run config may p labels history) :
    Counts p ∧ p.boost.workers + workersEnded history = workersStarted history := by
  induction run with
  | start now => exact ⟨rfl, rfl⟩
  | @next p q labels history label events run may hstep ih =>
      obtain ⟨hcounts, htold⟩ := ih
      obtain ⟨come, go, hworkers, hcount, hstarted, hended⟩ :=
        step_shifts run.roster.1 hcounts hstep
      unfold Counts at hcounts ⊢
      rw [workersStarted_append, workersEnded_append, hstarted, hended]
      dsimp only at hworkers hcount
      omega

/-- The count is a word. -/
theorem Run.count_lt {config : Config} {may : Pool α → Label α → Prop} {p : Pool α}
    {labels : List (Label α)} {history : List (Nat × Event α)}
    (run : Run config may p labels history) : p.boost.workers < wordSize := by
  induction run with
  | start now => exact Nat.two_pow_pos 64
  | next run may hstep ih =>
      cases step_shift hstep with
      | stay workers count steady => exact count.trans_lt ih
      | hire number lifetime some_come called countable boost workers told =>
          obtain ⟨hcounted, hlt⟩ := Boost.Controller.started_counted countable
          rw [boost, hcounted]
          exact hlt
      | boost push observed number lifetime granted countable boost workers told =>
          obtain ⟨-, hcounted, -, hlt⟩ := Boost.Controller.boost_counted granted
          rw [boost, hcounted]
          exact hlt
      | turn w v here crew last workers count steady => exact count.trans_lt ih
      | leave w here why workers boost front steady told =>
          rw [boost]
          exact (Nat.sub_le _ _).trans_lt ih

/-- A worker that ends was counted until then. -/
theorem exited_counted {p : Pool α} (hcounts : Counts p) {label : Label α}
    {o : Outcome α} (ho : p.step label = some o) {id crew : Nat} (hexit : .exited id crew ∈ o.2) :
    o.1.boost.workers + 1 = p.boost.workers := by
  cases step_shift ho with
  | stay workers count steady => exact (steady _ hexit).elim
  | hire number lifetime some_come called countable boost workers told => simp [told] at hexit
  | boost push observed number lifetime granted countable boost workers told =>
      simp [told] at hexit
  | turn w v here crew last workers count steady => exact (steady _ hexit).elim
  | leave w here why workers boost front steady told =>
      have hsome : 0 < p.boost.workers := by
        rw [hcounts]
        exact List.length_pos_of_mem (worker?_some here).1
      rw [boost]
      exact Nat.sub_add_cancel hsome

/-- A boost leads to the limit at most. -/
theorem asked_le {p : Pool α} {label : Label α} {o : Outcome α} (ho : p.step label = some o)
    {push number : Nat} {observed lifetime : Duration}
    (hasked : .asked push observed (.boost number lifetime) ∈ o.2) {limit : Nat}
    (hlimit : p.boost.maxWorkers = some limit) : o.1.boost.workers ≤ limit := by
  cases step_shift ho with
  | stay workers count steady => exact (steady _ hasked).elim
  | hire number lifetime some_come called countable boost workers told => simp [told] at hasked
  | boost push observed number lifetime granted countable boost workers told =>
      obtain ⟨-, hcounted, hle, -⟩ := Boost.Controller.boost_counted granted
      rw [boost, hcounted]
      exact hle limit hlimit
  | turn w v here crew last workers count steady => exact (steady _ hasked).elim
  | leave w here why workers boost front steady told =>
      rw [told] at hasked
      rcases List.mem_append.mp hasked with hfront | hexit
      · exact (steady _ hfront).elim
      · simp at hexit

def Label.adds? : Label α → Option Nat
  | .addWorkers count _ => some count
  | _ => none

/-- The limit stands, and workers are only added where it leaves room for them. -/
def Within (limit : Nat) (p : Pool α) (label : Label α) : Prop :=
  p.boost.maxWorkers = some limit ∧ ∀ count ∈ label.adds?, p.boost.workers + count ≤ limit

instance decidableWithin (limit : Nat) (p : Pool α) (label : Label α) :
    Decidable (Within limit p label) :=
  inferInstanceAs (Decidable (_ ∧ ∀ count ∈ label.adds?, p.boost.workers + count ≤ limit))

theorem step_within {limit : Nat} {p : Pool α} {label : Label α} (within : Within limit p label)
    (hle : p.boost.workers ≤ limit) {o : Outcome α} (ho : p.step label = some o) :
    o.1.boost.workers ≤ limit := by
  obtain ⟨hlimit, hadds⟩ := within
  cases step_shift ho with
  | stay workers count steady => exact count.trans_le hle
  | hire number lifetime some_come called countable boost workers told =>
      rw [boost, (Boost.Controller.started_counted countable).1]
      refine hadds number ?_
      rw [called]
      rfl
  | boost push observed number lifetime granted countable boost workers told =>
      have hasked : .asked push observed (.boost number lifetime) ∈ o.2 := by simp [told]
      exact asked_le ho hasked hlimit
  | turn w v here crew last workers count steady => exact count.trans_le hle
  | leave w here why workers boost front steady told =>
      rw [boost]
      exact (Nat.sub_le _ _).trans hle

theorem Run.within {config : Config} {limit : Nat} {p : Pool α} {labels : List (Label α)}
    {history : List (Nat × Event α)} (run : Run config (Within limit) p labels history) :
    p.boost.workers ≤ limit := by
  induction run with
  | start now => exact Nat.zero_le limit
  | next run may hstep ih => exact step_within may ih hstep

/-- The count of workers is exact, whatever the callers, the timers and the handlers do. It is the
number of the workers that are there, which is that of those started and not ended; a worker that
ends was counted until then. A boost leads to the limit in force at most. So as long as the limit
stands, and whoever adds workers finds room for them, there are never more workers than it
allows. -/
theorem headcount_exact {config : Config} {p : Pool α} {labels : List (Label α)}
    {history : List (Nat × Event α)} (run : Run config AnyStep p labels history) :
    p.boost.workers = p.workers.length ∧
    p.boost.workers + workersEnded history = workersStarted history ∧
    (∀ label q events, p.step label = some (q, events) → ∀ id crew, .exited id crew ∈ events →
      q.boost.workers + 1 = p.boost.workers) ∧
    (∀ label q events, p.step label = some (q, events) → ∀ push observed number lifetime,
      .asked push observed (.boost number lifetime) ∈ events →
        ∀ limit, p.boost.maxWorkers = some limit → q.boost.workers ≤ limit) ∧
    (∀ limit, Run config (Within limit) p labels history → p.boost.workers ≤ limit) := by
  obtain ⟨hcounts, htold⟩ := run.counts
  refine ⟨hcounts, htold, ?_, ?_, ?_⟩
  · intro label q events hstep id crew hexit
    exact exited_counted hcounts hstep hexit
  · intro label q events hstep push observed number lifetime hasked limit hlimit
    exact asked_le hstep hasked hlimit
  · intro limit hwithin
    exact hwithin.within

/-- Room for one item, batches of one, and boosts of two workers up to a limit of three. -/
def boostedConfig : Config where
  queueLength := 1
  batchLength := 1
  blockTimeout := .ofNanos 10
  boostTimeout := .ofNanos 100
  boostWorkers := 2
  maxWorkers := some 3

/-- A push is blocked for long enough to be granted two workers. Their boost ends while both are
inside handler calls; one of the calls panics, and one more worker is added. -/
def boostedSteps : List (Label Nat) :=
  [.addWorkers 1 none, .push 10 false, .work 0, .push 20 false, .push 30 false, .tick 10,
    .resume 2, .work 1, .resume 2, .work 2, .tick 110, .expireBoost 1, .finish 1 true,
    .addWorkers 1 none]

theorem headcount_exact_boosted : ∃ (p : Pool Nat) (history : List (Nat × Event Nat)),
    Run boostedConfig AnyStep p boostedSteps history ∧
    Run boostedConfig (Within 3) p boostedSteps history ∧
    (10, .asked 2 (.ofNanos 10) (.boost 2 (.ofNanos 100))) ∈ history ∧
    p.workers.map Worker.crew = [0, 1, 2] ∧ p.crewStopped 1 = true ∧
    workersStarted history = 4 ∧ workersEnded history = 1 ∧
    p.boost.workers = p.workers.length ∧ p.boost.workers ≤ 3 := by
  have run : Run boostedConfig AnyStep _ ([] ++ boostedSteps) _ :=
    (Run.start 0 8).replay (fun _ _ _ => trivial) rfl
  have within : Run boostedConfig (Within 3) _ ([] ++ boostedSteps) _ :=
    (Run.start 0 8).replay_allowed (by decide) rfl
  obtain ⟨hworkers, -, -, -, hlimit⟩ := headcount_exact run
  exact ⟨_, _, run, within, by decide, by decide, by decide, by decide, by decide, hworkers,
    hlimit 3 within⟩

end Pool

end Coordination
