import Coordination.Proofs.Boost.Decision
import Coordination.Proofs.Pool.Step

/-!
Who works for a pool, and why they stop. A step of a pool leaves the workers alone, starts a crew,
gives one worker a new state, or lets one go; and a worker makes its last call, or goes without
one, only if its token has fired or the buffer is closed and empty, unless no batch of the pool fits
memory. Crews are told apart by their numbers, which are given out in order.
-/

namespace Coordination.Pool

variable {α : Type}

/-- The worker is in its last handler call. -/
def Worker.Leaving (w : Worker α) : Prop := ∃ batch, w.stance = .handling batch true

/-- An event that tells of nobody who comes or goes. -/
def Event.Steady : Event α → Prop
  | .crewStarted _ _ _ | .exited _ _ | .asked _ _ (.boost _ _) => False
  | _ => True

/-- Why a worker makes its last call or goes without one, where `rest` is left in the buffer: its
token has fired, and with the whole pool's it has taken all that was there; or nothing more can
come. -/
def Dismissed (p : Pool α) (w : Worker α) (rest : List (Entry α)) : Prop :=
  p.crewStopped w.crew = true ∧ (p.terminated = true → rest = []) ∨
    p.closed = true ∧ p.buffer = []

/-- What one step means for the workers and for their count, and what it tells of them. -/
inductive Shift (p : Pool α) (label : Label α) (q : Pool α) (events : List (Event α)) : Prop where
  /-- Nobody comes, goes or works. -/
  | stay (workers : q.workers = p.workers) (count : q.boost.workers = p.boost.workers)
    (steady : ∀ e ∈ events, e.Steady)
  /-- A crew is asked for from outside. -/
  | hire (number : Nat) (lifetime : Option Duration) (some_come : 0 < number)
    (called : label = .addWorkers number lifetime)
    (countable : p.boost.countable number = true) (boost : q.boost = p.boost.started number)
    (workers : q.workers = (p.hire number lifetime).1.workers)
    (told : events = [.crewStarted p.crews number lifetime])
  /-- A crew comes with a boost. -/
  | boost (push : Nat) (observed : Duration) (number : Nat) (lifetime : Duration)
    (granted : (p.boost.blocked observed).2 = .boost number lifetime)
    (countable : p.boost.countable number = true) (boost : q.boost = (p.boost.blocked observed).1)
    (workers : q.workers = (p.hire number (some lifetime)).1.workers)
    (told : events = [.asked push observed (.boost number lifetime),
      .crewStarted p.crews number (some lifetime)])
  /-- One worker goes on in a new state. -/
  | turn (w v : Worker α) (here : p.worker? v.id = some w) (crew : v.crew = w.crew)
    (last : v.Leaving → Dismissed p w q.buffer) (workers : q.workers = (p.update v).workers)
    (count : q.boost.workers = p.boost.workers) (steady : ∀ e ∈ events, e.Steady)
  /-- One worker goes. -/
  | leave (w : Worker α) (here : p.worker? w.id = some w)
    (why : w.Leaving ∨ label = .finish w.id true ∨ Dismissed p w q.buffer ∨ p.batchFits = false)
    (workers : q.workers = (p.exit w).1.workers) (boost : q.boost = p.boost.stopped)
    (front : List (Event α)) (steady : ∀ e ∈ front, e.Steady)
    (told : events = front ++ [.exited w.id w.crew])

section Worker

variable {p : Pool α} {w : Worker α}

/-- A worker that goes on to something else than its last call. -/
theorem turn_shift (here : p.worker? w.id = some w) (batch : List (Entry α)) (wait : Nat)
    (stance : Stance α) (goes : ∀ last, stance ≠ .handling last true) (rest : List (Entry α))
    {label : Label α} {events : List (Event α)} (steady : ∀ e ∈ events, e.Steady) :
    Shift p label (({ p with buffer := rest } : Pool α).update ⟨w.id, w.crew, batch, wait, stance⟩)
      events := by
  refine Shift.turn w ⟨w.id, w.crew, batch, wait, stance⟩ here rfl ?_ rfl rfl steady
  rintro ⟨last, hlast⟩
  exact absurd hlast (goes last)

theorem callLast_shift (here : p.worker? w.id = some w) (rest : List (Entry α))
    (why : Dismissed p w rest) (batch : List (Entry α)) (front : List (Event α))
    (steady : ∀ e ∈ front, e.Steady) {label : Label α} :
    Shift p label (({ p with buffer := rest } : Pool α).callLast w batch).1
      (front ++ (({ p with buffer := rest } : Pool α).callLast w batch).2) := by
  unfold callLast
  split
  · exact Shift.leave w here (Or.inr (Or.inr (Or.inl why))) rfl rfl front steady rfl
  · refine Shift.turn w { w with batch := [], stance := .handling batch true } here rfl
      (fun _ => why) rfl rfl ?_
    intro e he
    rcases List.mem_append.mp he with he | he
    · exact steady e he
    · obtain rfl := List.mem_singleton.mp he
      trivial

theorem works_shift (here : p.worker? w.id = some w) {o : Outcome α} (h : Works p w o)
    {label : Label α} : Shift p label o.1 o.2 := by
  have hnone : ∀ e ∈ ([] : List (Event α)), e.Steady := by simp
  cases h with
  | noRoom holds unfit =>
      exact Shift.leave w here (Or.inr (Or.inr (Or.inr unfit))) rfl rfl [] hnone rfl
  | drain stopped halted =>
      refine callLast_shift here [] (Or.inl ⟨stopped, fun _ => rfl⟩) (w.batch ++ p.buffer) _ ?_
      intro e he
      obtain ⟨entry, -, rfl⟩ := List.mem_map.mp he
      trivial
  | stop stopped runs =>
      have why : Dismissed p w p.buffer :=
        Or.inl ⟨stopped, fun halted => absurd halted (Bool.eq_false_iff.mp runs)⟩
      exact callLast_shift here p.buffer why w.batch [] hnone
  | finish goes empty closed =>
      exact callLast_shift here p.buffer (Or.inr ⟨closed, empty⟩) w.batch [] hnone
  | @take goes e rest front =>
      simp only [take, after, call]
      split
      · exact turn_shift here [] firstWait (.handling (w.batch ++ [e]) false) (by simp) rest
          (by simp [Event.Steady])
      · exact turn_shift here (w.batch ++ [e]) w.wait .ready (by simp) rest (by simp [Event.Steady])
  | wait goes empty opened ready =>
      exact turn_shift here w.batch w.wait (.idle (p.now + w.wait)) (by simp) p.buffer
        (by simp [Event.Steady])
  | wake goes empty opened waits late =>
      simp only [idleFlush, after, call]
      split
      · exact turn_shift here w.batch nextWait .ready (by simp) p.buffer (by simp [Event.Steady])
      · exact turn_shift here [] nextWait (.handling w.batch false) (by simp) p.buffer
          (by simp [Event.Steady])

end Worker

theorem pushes_shift {p : Pool α} {item : α} {cancelled : Bool} {o : Outcome α}
    (h : Pushes p item cancelled o) {label : Label α} : Shift p label o.1 o.2 := by
  cases h with
  | turnAway halted => exact Shift.stay rfl rfl (by simp [Event.Steady])
  | refuse runs error why => exact Shift.stay rfl rfl (by simp [refuse, Event.Steady])
  | accept runs opened room => exact Shift.stay rfl rfl (by simp [accept, Event.Steady])
  | block runs opened full wanted watch watches =>
      exact Shift.stay rfl rfl (by simp [block, Event.Steady])

theorem resumes_shift {p : Pool α} {b : Blocked α} {o : Outcome α} (h : Resumes p b o)
    {label : Label α} : Shift p label o.1 o.2 := by
  cases h with
  | refuse error why => exact Shift.stay rfl rfl (by simp [refuse, Event.Steady])
  | accept runs wanted opened room => exact Shift.stay rfl rfl (by simp [accept, Event.Steady])
  | @deny runs wanted opened full w watch late denied whole =>
      refine Shift.stay rfl rfl ?_
      intro e he
      obtain rfl := List.mem_singleton.mp he
      generalize hdecision : (p.boost.blocked w.observed).2 = decision at denied ⊢
      cases decision with
      | boost number lifetime => exact denied number lifetime rfl
      | disabled | alreadyEscalated | atCapacity | overflow => trivial
  | @boost runs wanted opened full w watch late number lifetime granted =>
      have countable : p.boost.countable number = true :=
        decide_eq_true (Boost.boost_cases granted).2.1
      exact Shift.boost b.entry.push w.observed number lifetime granted countable rfl rfl rfl
  | @breakOff runs wanted opened full w watch late overflow =>
      refine Shift.stay rfl ?_ (by simp [Event.Steady])
      rw [(Boost.overflow_cases overflow).2.2]
      rfl

/-- Every step is one of these shifts. -/
theorem step_shift {p : Pool α} {label : Label α} {o : Outcome α} (h : p.step label = some o) :
    Shift p label o.1 o.2 := by
  cases step_acts h with
  | push item cancelled becomes => exact pushes_shift becomes
  | resume waits becomes => exact resumes_shift becomes
  | work here free works => exact works_shift here works
  | addWorkers stay some_come countable limited =>
      exact Shift.hire _ stay some_come rfl countable rfl rfl rfl
  | @finishLast w here batch last panicked calls ends =>
      have why : w.Leaving ∨ Label.finish w.id panicked = (.finish w.id true : Label α) ∨
          Dismissed p w p.buffer ∨ p.batchFits = false := by
        rcases ends with rfl | rfl
        · exact Or.inl ⟨batch, calls⟩
        · exact Or.inr (Or.inl rfl)
      exact Shift.leave w here why rfl rfl [.handled w.id batch panicked]
        (by simp [Event.Steady]) rfl
  | @finish w here batch calls =>
      exact Shift.turn w { w with stance := .ready } here rfl (fun ⟨_, hlast⟩ => nomatch hlast)
        rfl rfl (by simp [Event.Steady])
  | stopCrew crew =>
      obtain ⟨stopped, hstop⟩ := stopCrew_eq p crew
      rw [hstop]
      exact Shift.stay rfl rfl (by simp)
  | @expireBoost d known due =>
      obtain ⟨stopped, hstop⟩ := stopCrew_eq p d.crew
      rw [hstop]
      exact Shift.stay rfl rfl (by simp [Event.Steady])
  | @endStay d known goes due =>
      obtain ⟨stopped, hstop⟩ := stopCrew_eq p d.crew
      rw [hstop]
      exact Shift.stay rfl rfl (by simp)
  | startBroke | flushed | flushFailed | flushWaits | giveUpFlush | pollFlushed =>
      exact Shift.stay rfl rfl (by simp [Event.Steady])
  | cancelPush | dropPush | addNobody | dropStay | pollAgain | cancelFlush | dropFlush
  | setMaxWorkers | manage | shutdown | terminate | tick => exact Shift.stay rfl rfl (by simp)

section Crews

variable {p : Pool α}

/-- The crew of every worker that is there. -/
def roll (p : Pool α) : List Nat := p.workers.map Worker.crew

theorem Roster.roll_update (h : Roster p) {w v : Worker α} (hw : p.worker? v.id = some w)
    (hcrew : v.crew = w.crew) : (p.update v).roll = p.roll := by
  obtain ⟨before, after, hp, hq, -⟩ := h.place hw
  simp only [roll, hp, hq, List.map_append, List.map_cons, hcrew]

theorem Roster.roll_exit (h : Roster p) {w : Worker α} (hw : p.worker? w.id = some w) :
    p.roll.Perm (w.crew :: (p.exit w).1.roll) := by
  obtain ⟨before, after, hp, -, hq⟩ := h.place hw
  simp only [roll, hp, hq, List.map_append, List.map_cons]
  exact List.perm_middle

theorem hire_roll (p : Pool α) (count : Nat) (lifetime : Option Duration) :
    (p.hire count lifetime).1.roll = p.roll ++ List.replicate count p.crews := by
  simp only [roll, hire, List.map_append, List.map_map]
  congr 1
  exact List.map_const'.trans (by rw [List.length_range])

/-- Crews are numbered in order: a step that starts one gives the next number away. -/
def Numbers (p : Pool α) (o : Outcome α) : Prop :=
  p.crews ≤ o.1.crews ∧
    ∀ crew count lifetime, .crewStarted crew count lifetime ∈ o.2 → o.1.crews = p.crews + 1

theorem works_numbers {w : Worker α} {o : Outcome α} (h : Works p w o) : Numbers p o := by
  have hcall (q : Pool α) (batch : List (Entry α)) (hq : q.crews = p.crews) :
      Numbers p (q.callLast w batch) := by
    unfold callLast
    split
    · exact ⟨hq.ge, by simp [exit]⟩
    · exact ⟨hq.ge, by simp [call]⟩
  cases h with
  | noRoom holds unfit => exact ⟨Nat.le_refl p.crews, by simp [exit]⟩
  | drain stopped halted =>
      obtain ⟨hle, hstart⟩ := hcall { p with buffer := [] } (w.batch ++ p.buffer) rfl
      refine ⟨hle, fun crew count lifetime hmem => hstart crew count lifetime ?_⟩
      simpa [drain, after] using hmem
  | stop stopped runs => exact hcall p w.batch rfl
  | finish goes empty closed => exact hcall p w.batch rfl
  | take goes front =>
      unfold take
      dsimp only
      split <;> exact ⟨Nat.le_refl p.crews, by simp [after, call]⟩
  | wait goes empty opened ready => exact ⟨Nat.le_refl p.crews, by simp⟩
  | wake goes empty opened waits late =>
      unfold idleFlush
      dsimp only
      split <;> exact ⟨Nat.le_refl p.crews, by simp [after, call]⟩

theorem step_numbers {label : Label α} {o : Outcome α} (h : p.step label = some o) :
    Numbers p o := by
  have hnone (q : Pool α) (events : List (Event α)) (hq : p.crews ≤ q.crews)
      (steady : ∀ e ∈ events, e.Steady) : Numbers p (q, events) :=
    ⟨hq, fun _ _ _ hstart => (steady _ hstart).elim⟩
  cases step_acts h with
  | addWorkers => exact ⟨Nat.le_succ p.crews, fun _ _ _ _ => rfl⟩
  | addNobody => exact hnone _ _ (Nat.le_succ p.crews) (by simp)
  | push item cancelled becomes =>
      cases becomes <;> exact hnone _ _ (Nat.le_refl p.crews) (by simp [Event.Steady])
  | resume waits becomes =>
      cases becomes with
      | boost => exact ⟨Nat.le_succ p.crews, fun _ _ _ _ => rfl⟩
      | deny => exact ⟨Nat.le_refl p.crews, by simp⟩
      | refuse | accept | breakOff =>
          exact hnone _ _ (Nat.le_refl p.crews) (by simp [Event.Steady])
  | work here free works => exact works_numbers works
  | finishLast => exact ⟨Nat.le_refl p.crews, by simp [after, exit]⟩
  | stopCrew crew =>
      obtain ⟨stopped, hstop⟩ := stopCrew_eq p crew
      rw [hstop]
      exact hnone _ _ (Nat.le_refl p.crews) (by simp)
  | @expireBoost d | @endStay d =>
      obtain ⟨stopped, hstop⟩ := stopCrew_eq p d.crew
      rw [hstop]
      exact hnone _ _ (Nat.le_refl p.crews) (by simp [Event.Steady])
  | startBroke | finish | flushed | flushFailed | flushWaits | giveUpFlush | pollFlushed
  | cancelPush | dropPush | dropStay | pollAgain | cancelFlush | dropFlush | setMaxWorkers | manage
  | shutdown | terminate | tick => exact hnone _ _ (Nat.le_refl p.crews) (by simp [Event.Steady])

end Crews

end Coordination.Pool
