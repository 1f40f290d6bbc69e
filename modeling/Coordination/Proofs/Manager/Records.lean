import Mathlib.Algebra.BigOperators.Group.List.Lemmas
import Coordination.Manager.Run
import Coordination.Proofs.Manager.Batches
import Coordination.Proofs.Manager.Ledger
import Coordination.Proofs.Pool.Closing
import Coordination.Proofs.Pool.Headcount

/-!
A record agrees with the pool that reports to it. The two are told apart: the record hears of crews
that start and of workers that end, and tokens to fire are all that comes back. A batch leaves the
record by an administrator, by its watcher or with its last worker, and its token fires each time.
So the token of a crew has fired if the crew has workers and the record misses it. The other way
round, the record may list a batch whose token has fired only until its watcher has run, so at rest
it lists none.
-/

namespace Coordination.Manager

variable {α : Type}

namespace Ledger

variable {τ : Type}

theorem noteAll_singleton (name : Nat → τ) (l : Ledger τ) (e : Pool.Event α) :
    l.noteAll name [e] = l.note name e := by
  simp [noteAll]

/-- What tells of nobody who comes or goes leaves the record alone. -/
theorem noteAll_steady (name : Nat → τ) (l : Ledger τ) {front : List (Pool.Event α)}
    (steady : ∀ e ∈ front, e.Steady) (rest : List (Pool.Event α)) :
    l.noteAll name (front ++ rest) = l.noteAll name rest := by
  induction front with
  | nil => rfl
  | cons e front ih =>
      have hsame : l.note name e = (l, []) := by
        have := steady e List.mem_cons_self
        cases e with
        | crewStarted | exited => exact this.elim
        | _ => rfl
      have htail := ih fun e he => steady e (List.mem_cons_of_mem _ he)
      simp only [List.cons_append, noteAll, hsame, htail, List.nil_append]

end Ledger

namespace Attached

open Pool (Roster)

theorem fire_eq (p : Pool α) (fired : List Nat) : ∃ stopped, fire p fired = { p with stopped } := by
  induction fired generalizing p with
  | nil => exact ⟨p.stopped, rfl⟩
  | cons crew fired ih =>
      obtain ⟨stopped, hstop⟩ := Pool.stopCrew_eq p crew
      obtain ⟨later, hlater⟩ := ih (p.stopCrew crew)
      refine ⟨later, ?_⟩
      change fire (p.stopCrew crew) fired = _
      rw [hlater, hstop]

theorem fire_crewStopped (p : Pool α) (fired : List Nat) (crew : Nat) :
    (fire p fired).crewStopped crew = true ↔ p.crewStopped crew = true ∨ crew ∈ fired := by
  induction fired generalizing p with
  | nil => simp [fire]
  | cons first fired ih =>
      change (fire (p.stopCrew first) fired).crewStopped crew = true ↔ _
      rw [ih, Pool.stopCrew_crewStopped, List.mem_cons, or_assoc]

/-- Tokens that are fired are steps of the pool. -/
theorem fire_run {config : Pool.Config} {p : Pool α} {steps : List (Pool.Label α)}
    {history : List (Nat × Pool.Event α)} (run : Pool.Run config Pool.AnyStep p steps history)
    (fired : List Nat) : ∃ more, Pool.Run config Pool.AnyStep (fire p fired) more history := by
  induction fired generalizing p steps with
  | nil => exact ⟨steps, run⟩
  | cons crew fired ih =>
      have hnext := Pool.Run.next run trivial
        (show p.step (.stopCrew crew) = some (p.stopCrew crew, []) from rfl)
      rw [Pool.stamp, List.map_nil, List.append_nil] at hnext
      exact ih hnext

/-- The pool of a run has come about by steps of its own. -/
theorem Run.pool {config : Pool.Config} {a : Attached α} {labels : List (Label α)}
    {history : List (Nat × Pool.Event α)} (run : Run config a labels history) :
    ∃ steps, Pool.Run config Pool.AnyStep a.pool steps history := by
  induction run with
  | start run _ => exact ⟨_, run⟩
  | @next a b labels history label events run hstep ih =>
      obtain ⟨steps, ih⟩ := ih
      cases label with
      | pool label =>
          obtain ⟨⟨q, told⟩, hq, heq⟩ := Option.map_eq_some_iff.mp hstep
          obtain ⟨rfl, rfl⟩ := Prod.mk.inj heq
          have hnext := Pool.Run.next ih trivial hq
          unfold absorb
          split
          · exact ⟨_, hnext⟩
          · exact fire_run hnext _
      | watch crew =>
          unfold Attached.step at hstep
          dsimp only at hstep
          split at hstep
          · obtain ⟨next, -, heq⟩ := Option.map_eq_some_iff.mp hstep
            obtain ⟨rfl, rfl⟩ := Prod.mk.inj heq
            rw [Pool.stamp, List.map_nil, List.append_nil]
            exact fire_run ih _
          · cases hstep
      | cancelBatch batch | removeBatch batch =>
          obtain ⟨l, -, heq⟩ := Option.map_eq_some_iff.mp hstep
          obtain ⟨rfl, rfl⟩ := Prod.mk.inj heq
          rw [Pool.stamp, List.map_nil, List.append_nil]
          exact fire_run ih _

/-- A record and the pool that reports to it. -/
structure Tied (p : Pool α) (l : Ledger Nat) : Prop where
  roll_lt : ∀ crew ∈ p.roll, crew < p.crews
  paired : l.Paired p.crews
  agrees : l.Agrees p.roll fun crew => p.crewStopped crew = true

/-- What comes back from the record are tokens to fire. -/
theorem fire_tied {q : Pool α} {l : Ledger Nat} (roll_lt : ∀ crew ∈ q.roll, crew < q.crews)
    (paired : l.Paired q.crews) (fired : List Nat)
    (agrees : l.Agrees q.roll fun crew => q.crewStopped crew = true ∨ crew ∈ fired) :
    Tied (fire q fired) l := by
  obtain ⟨stopped, hfire⟩ := fire_eq q fired
  have hagrees := agrees.mono fun crew => (fire_crewStopped q fired crew).mpr
  constructor
  · rw [hfire]
    exact roll_lt
  · rw [hfire]
    exact paired
  · rw [hfire] at hagrees ⊢
    exact hagrees

section Noted

variable {p q : Pool α} {l : Ledger Nat} {halted : Nat → Prop}

/-- A record that has heard of all that a pool did, with the tokens that may have fired. -/
structure Noted (p : Pool α) (halted : Nat → Prop) (l : Ledger Nat) : Prop where
  roll_lt : ∀ crew ∈ p.roll, crew < p.crews
  paired : l.Paired p.crews
  agrees : l.Agrees p.roll halted

/-- Nobody comes or goes. -/
theorem Noted.kept (h : Noted p halted l) (hcrews : p.crews ≤ q.crews) (hroll : q.roll = p.roll) :
    Noted q halted l := by
  refine ⟨?_, h.paired.mono hcrews, ?_⟩
  · rw [hroll]
    exact fun crew hcrew => Nat.lt_of_lt_of_le (h.roll_lt crew hcrew) hcrews
  · rw [hroll]
    exact h.agrees

/-- A crew comes, and is recorded as a batch. -/
theorem Noted.joined (h : Noted p halted l) (hcrews : q.crews = p.crews + 1) {count : Nat}
    (hcount : 0 < count) (lifetime : Option Duration)
    (hroll : q.roll = p.roll ++ List.replicate count p.crews) :
    Noted q halted (l.note id (.crewStarted p.crews count lifetime : Pool.Event α)).1 := by
  refine ⟨?_, ?_, ?_⟩
  · rw [hroll, hcrews]
    intro crew hcrew
    rcases List.mem_append.mp hcrew with hcrew | hcrew
    · exact Nat.lt_succ_of_lt (h.roll_lt crew hcrew)
    · rw [List.eq_of_mem_replicate hcrew]
      exact Nat.lt_succ_self p.crews
  · rw [hcrews]
    exact h.paired.register count lifetime
  · rw [hroll]
    exact h.agrees.register h.roll_lt hcount lifetime _

/-- A worker goes, and its batch is told. -/
theorem Noted.left (h : Noted p halted l) (hcrews : p.crews ≤ q.crews) (worker : Nat) {crew : Nat}
    (hroll : p.roll.Perm (crew :: q.roll)) :
    Noted q (fun c => halted c ∨ c ∈ (l.note id (.exited worker crew : Pool.Event α)).2)
      (l.note id (.exited worker crew : Pool.Event α)).1 := by
  obtain ⟨hpaired, hagrees⟩ := h.agrees.note_exited α h.paired worker hroll
  refine ⟨fun other hother => ?_, hpaired.mono hcrews, hagrees⟩
  have hthere := hroll.mem_iff.mpr (List.mem_cons_of_mem crew hother)
  exact Nat.lt_of_lt_of_le (h.roll_lt other hthere) hcrews

/-- The record hears of a step. It fires tokens of crews only whose last worker has gone. -/
theorem step_noted (hroster : Roster p) (h : Noted p halted l) {label : Pool.Label α}
    {o : Pool.Outcome α} (ho : p.step label = some o) :
    Noted o.1 (fun crew => halted crew ∨ crew ∈ (l.noteAll id o.2).2) (l.noteAll id o.2).1 ∧
      ∀ crew ∈ (l.noteAll id o.2).2, crew < o.1.crews ∧ crew ∉ o.1.roll := by
  obtain ⟨hcrews, hstart⟩ := Pool.step_numbers ho
  have hsilent {m : Ledger Nat} {fired : List Nat} (noted : Noted o.1 halted m)
      (hnone : fired = []) : Noted o.1 (fun crew => halted crew ∨ crew ∈ fired) m ∧
        ∀ crew ∈ fired, crew < o.1.crews ∧ crew ∉ o.1.roll := by
    subst hnone
    exact ⟨⟨noted.roll_lt, noted.paired, noted.agrees.mono fun _ => Or.inl⟩, by simp⟩
  have hsteady (steady : ∀ e ∈ o.2, e.Steady) : l.noteAll id o.2 = (l, []) := by
    rw [← List.append_nil o.2, Ledger.noteAll_steady id l steady]
    rfl
  have hjoined {number : Nat} {lifetime : Option Duration}
      (workers : o.1.workers = (p.hire number lifetime).1.workers) :
      o.1.roll = p.roll ++ List.replicate number p.crews := by
    rw [← Pool.hire_roll p number lifetime, Pool.roll, workers, Pool.roll]
  cases Pool.step_shift ho with
  | stay workers count steady =>
      rw [hsteady steady]
      exact hsilent (h.kept hcrews (congrArg (List.map Pool.Worker.crew) workers)) rfl
  | turn w v here crew last workers count steady =>
      have hroll : o.1.roll = (p.update v).roll := congrArg (List.map Pool.Worker.crew) workers
      rw [hsteady steady]
      exact hsilent (h.kept hcrews (hroll.trans (hroster.roll_update here crew))) rfl
  | hire number lifetime some_come called countable boost workers told =>
      have hnext : o.1.crews = p.crews + 1 := hstart p.crews number lifetime (by simp [told])
      rw [told, Ledger.noteAll_singleton]
      exact hsilent (h.joined hnext some_come lifetime (hjoined workers)) rfl
  | boost push observed number lifetime granted countable boost workers told =>
      have hnext : o.1.crews = p.crews + 1 := hstart p.crews number lifetime (by simp [told])
      have hcount : 0 < number := (Boost.Controller.boost_counted granted).1
      have hnote : l.noteAll id o.2 =
          l.note id (.crewStarted p.crews number (some lifetime) : Pool.Event α) := by
        rw [told, ← Ledger.noteAll_singleton]
        rfl
      rw [hnote]
      exact hsilent (h.joined hnext hcount (some lifetime) (hjoined workers)) rfl
  | leave w here why workers boost front steady told =>
      have hperm : p.roll.Perm (w.crew :: o.1.roll) := by
        have hexit := hroster.roll_exit here
        rwa [Pool.roll, Pool.roll, ← workers] at hexit
      rw [told, Ledger.noteAll_steady id l steady, Ledger.noteAll_singleton]
      refine ⟨h.left hcrews w.id hperm, fun crew hfired => ?_⟩
      obtain ⟨rfl, hlast⟩ := h.agrees.fired_of_exited α h.paired w.id hperm hfired
      have hthere : w.crew ∈ p.roll := hperm.mem_iff.mpr List.mem_cons_self
      exact ⟨Nat.lt_of_lt_of_le (h.roll_lt _ hthere) hcrews, hlast⟩

end Noted

section Step

variable {p q : Pool α} {l : Ledger Nat}

/-- The record follows the pool. -/
theorem step_tied (hroster : Roster p) (h : Tied p l) {label : Pool.Label α} {o : Pool.Outcome α}
    (ho : p.step label = some o) : Tied (fire o.1 (l.noteAll id o.2).2) (l.noteAll id o.2).1 := by
  obtain ⟨⟨hroll, hpaired, hagrees⟩, -⟩ := step_noted hroster ⟨h.roll_lt, h.paired, h.agrees⟩ ho
  refine fire_tied hroll hpaired _ (hagrees.mono fun crew => ?_)
  exact Or.imp_left (Pool.step_latched ho).crewStopped

/-- An administrator takes a batch off the record. -/
theorem forget_tied (h : Tied p l) (batch : Nat) :
    Tied (fire p (l.table.forget batch).2.toList) { l with table := (l.table.forget batch).1 } := by
  refine fire_tied h.roll_lt (h.paired.forget batch) _ ?_
  exact (h.agrees.forget h.paired batch).mono fun crew => Or.imp_right Option.mem_toList.mpr

/-- A watcher takes its batch off the record. -/
theorem watch_tied (h : Tied p l) {crew : Nat} {next : Ledger Nat × List Nat}
    (hnext : l.watch p crew = some next) : Tied (fire p next.2) next.1 := by
  unfold Ledger.watch at hnext
  split at hnext
  · cases hnext
  · rename_i k hk
    split at hnext
    · obtain rfl := Option.some.inj hnext
      obtain ⟨staffed, counted, recorded⟩ := (h.agrees.forget h.paired k.batch).mono
        fun crew => Or.imp_right Option.mem_toList.mpr
      exact fire_tied h.roll_lt (h.paired.unwatch k) _ ⟨staffed, counted, recorded⟩
    · cases hnext

end Step

theorem Run.tied {config : Pool.Config} {a : Attached α} {labels : List (Label α)}
    {history : List (Nat × Pool.Event α)} (run : Run config a labels history) :
    ∃ l, a.ledger = some l ∧ Tied a.pool l := by
  induction run with
  | @start p labels history run hnone =>
      have hempty : p.workers = [] := by
        rw [List.eq_nil_iff_forall_not_mem]
        intro w hw
        exact Nat.not_lt_zero w.id (hnone ▸ run.roster.1.id_lt w hw)
      have hroll : p.roll = [] := by rw [Pool.roll, hempty, List.map_nil]
      refine ⟨_, rfl, ?_, ?_, ?_⟩
      · simp [attach, hroll]
      · constructor <;> simp
      · constructor <;> simp [attach, hroll]
  | @next a b labels history label events run hstep ih =>
      obtain ⟨l, hl, htied⟩ := ih
      obtain ⟨steps, hpool⟩ := run.pool
      cases label with
      | pool label =>
          obtain ⟨⟨q, told⟩, hq, heq⟩ := Option.map_eq_some_iff.mp hstep
          obtain ⟨rfl, rfl⟩ := Prod.mk.inj heq
          simp only [absorb, hl]
          exact ⟨_, rfl, step_tied hpool.roster.1 htied hq⟩
      | watch crew =>
          simp only [Attached.step, hl] at hstep
          obtain ⟨next, hnext, heq⟩ := Option.map_eq_some_iff.mp hstep
          obtain ⟨rfl, rfl⟩ := Prod.mk.inj heq
          exact ⟨_, rfl, watch_tied htied hnext⟩
      | cancelBatch batch | removeBatch batch =>
          simp only [Attached.step, hl, Option.map_some] at hstep
          obtain ⟨rfl, rfl⟩ := Prod.mk.inj (Option.some.inj hstep)
          exact ⟨_, rfl, forget_tied htied batch⟩

theorem roll_count (p : Pool α) (crew : Nat) :
    p.roll.count crew = (p.workers.filter fun w => w.crew = crew).length := by
  rw [Pool.roll, List.count_eq_countP, List.countP_map, List.countP_eq_length_filter]
  rfl

/-- Where the record lists the crews that go on, every worker is on it or has been told to stop. -/
theorem Tied.workers_length {p : Pool α} {l : Ledger Nat} (h : Tied p l)
    (countable : p.workers.length < wordSize)
    (hexact : ∀ crew, crew ∈ l.table.batches.map Batch.token ↔
      crew ∈ p.roll ∧ p.crewStopped crew = false) :
    ∃ recorded, l.table.workerNumber = some recorded ∧
      p.workers.length = recorded + (p.workers.filter fun w => p.crewStopped w.crew).length := by
  have htokens : (l.table.batches.map Batch.token).Perm
      (p.roll.dedup.filter fun crew => !p.crewStopped crew) := by
    rw [List.perm_ext_iff_of_nodup h.paired.tokens_nodup ((List.nodup_dedup p.roll).filter _)]
    intro crew
    rw [hexact, List.mem_filter, List.mem_dedup, Bool.not_eq_true']
  have hrecorded : Batch.total l.table.batches =
      p.roll.countP fun crew => !p.crewStopped crew := calc
    Batch.total l.table.batches = (l.table.batches.map Batch.count).sum := Batch.total_eq_sum _
    _ = ((l.table.batches.map Batch.token).map fun crew => p.roll.count crew).sum := by
      rw [List.map_map]
      exact congrArg List.sum (List.map_congr_left h.agrees.counted)
    _ = ((p.roll.dedup.filter fun crew => !p.crewStopped crew).map
          fun crew => p.roll.count crew).sum := (htokens.map _).sum_eq
    _ = p.roll.countP fun crew => !p.crewStopped crew :=
      List.sum_map_count_dedup_filter_eq_countP _ p.roll
  have hstopped : (p.workers.filter fun w => p.crewStopped w.crew).length =
      p.roll.countP fun crew => p.crewStopped crew := by
    rw [Pool.roll, List.countP_map, List.countP_eq_length_filter]
    rfl
  have hlength : p.roll.length = p.workers.length := List.length_map _
  have hsplit := p.roll.length_eq_countP_add_countP fun crew => p.crewStopped crew
  simp only [Bool.not_eq_true, Bool.decide_eq_false] at hsplit
  refine ⟨Batch.total l.table.batches, ?_, ?_⟩
  · rw [BatchTable.workerNumber_eq, if_pos (by omega)]
  · omega

/-- The record of a pool agrees with it whenever nothing can go on without time moving, whatever
callers, administrators, boosts, timers and handlers have done, and in which order. The batches on
the record are those of the crews that have a worker and whose token has not fired, one for each,
under the number that the crew got when it started. Each counts the workers of its crew. And the
record has a number of workers: the pool counts as live so many and those whose token has fired. -/
theorem records_agree {config : Pool.Config} {a : Attached α} {labels : List (Label α)}
    {history : List (Nat × Pool.Event α)} (run : Run config a labels history)
    (resting : a.Resting) : ∃ l, a.ledger = some l ∧
      (∀ crew, (∃ b ∈ l.table.batches, b.token = crew) ↔
        a.pool.crewStopped crew = false ∧ ∃ w ∈ a.pool.workers, w.crew = crew) ∧
      (l.table.batches.map Batch.token).Nodup ∧
      (∀ b ∈ l.table.batches, (l.link? b.token).map Link.batch = some b.id ∧
        b.count = (a.pool.workers.filter fun w => w.crew = b.token).length) ∧
      ∃ recorded, l.table.workerNumber = some recorded ∧
        a.pool.boost.workers = recorded +
          (a.pool.workers.filter fun w => a.pool.crewStopped w.crew).length := by
  obtain ⟨l, hl, htied⟩ := run.tied
  obtain ⟨steps, hpool⟩ := run.pool
  -- A batch whose token has fired has a watcher that could run.
  have hgoes : ∀ b ∈ l.table.batches, a.pool.crewStopped b.token = false := by
    intro b hb
    refine ((resting_iff a).mp resting).2 b.token ?_
    simp only [watched, hl, Option.toList_some, List.flatMap_singleton]
    exact List.mem_map.mpr ⟨_, List.mem_filter.mpr ⟨htied.paired.linked b hb, rfl⟩, rfl⟩
  have hexact (crew : Nat) : crew ∈ l.table.batches.map Batch.token ↔
      crew ∈ a.pool.roll ∧ a.pool.crewStopped crew = false := by
    rw [List.mem_map]
    constructor
    · rintro ⟨b, hb, rfl⟩
      exact ⟨htied.agrees.staffed b hb, hgoes b hb⟩
    · rintro ⟨hcrew, hruns⟩
      exact htied.agrees.recorded crew hcrew (Bool.eq_false_iff.mp hruns)
  refine ⟨l, hl, ?_, htied.paired.tokens_nodup, ?_, ?_⟩
  · intro crew
    rw [and_comm, ← List.mem_map, ← List.mem_map]
    exact hexact crew
  · intro b hb
    constructor
    · rw [htied.paired.link?_eq hb]
      rfl
    · rw [htied.agrees.counted b hb, roll_count]
  · have hcounts : a.pool.boost.workers = a.pool.workers.length := hpool.counts.1
    rw [hcounts]
    exact htied.workers_length (hcounts ▸ hpool.count_lt) hexact

/-- A crew of two is reported and one of them panics. A boost comes and ends while its worker is
inside a handler call, and a third crew is cancelled on the record. -/
def reportedSteps : List (Label Nat) :=
  [.pool (.addWorkers 2 none), .pool (.push 10 false), .pool (.work 0), .pool (.push 20 false),
    .pool (.work 1), .pool (.push 30 false), .pool (.push 40 false), .pool (.tick 10),
    .pool (.resume 3), .pool (.work 2), .pool (.resume 3), .pool (.finish 0 true),
    .pool (.addWorkers 1 none), .cancelBatch 3, .watch 2, .pool (.work 3), .pool (.tick 110),
    .pool (.expireBoost 1), .watch 1]

theorem records_agree_boosted : ∃ (a : Attached Nat) (history : List (Nat × Pool.Event Nat))
    (l : Ledger Nat), Run Pool.boostedConfig a reportedSteps history ∧ a.Resting ∧
      a.ledger = some l ∧ l.table.counter = 3 ∧ l.table.batches.map Batch.key = [(1, 0)] ∧
      a.pool.workers.map Pool.Worker.crew = [0, 1] ∧ a.pool.crewStopped 1 = true ∧
      (∀ b ∈ l.table.batches,
        b.count = (a.pool.workers.filter fun w => w.crew = b.token).length) ∧
      ∃ recorded, l.table.workerNumber = some recorded ∧
        a.pool.boost.workers = recorded +
          (a.pool.workers.filter fun w => a.pool.crewStopped w.crew).length := by
  have run : Run Pool.boostedConfig _ (([] : List (Pool.Label Nat)).map .pool ++ reportedSteps) _ :=
    (Run.start (Pool.Run.start 0 8) rfl).replay rfl
  obtain ⟨l, hl, -, -, hcounts, htotal⟩ := records_agree run (by decide)
  obtain rfl := Option.some.inj hl
  exact ⟨_, _, _, run, by decide, rfl, rfl, rfl, rfl, rfl, fun b hb => (hcounts b hb).2, htotal⟩

end Attached

end Coordination.Manager
