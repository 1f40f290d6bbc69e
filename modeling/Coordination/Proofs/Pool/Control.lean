import Coordination.Proofs.Boost.Backoff
import Coordination.Proofs.Pool.Step

/-!
A pool and its boost controller. A step tells the controller of a granted boost, of the end of one,
of a push that breaks off for want of a count, or of something that makes no turn; the pool keeps
the end of each granted boost in a list, and takes it out when it has come. Apart from the two steps
in which that happens nothing reaches the list: no crew's token, no panic, no new setting, and not
the end of the pool.
-/

namespace Coordination

namespace Boost

/-- Without a turn no boost begins or ends. -/
theorem active_of_turns_nil {s : Controller} {events : List Event} (h : s.turns events = []) :
    (s.run events).active = s.active := by
  induction events generalizing s with
  | nil => rfl
  | cons e es ih =>
      obtain ⟨hturn, hrest⟩ := List.append_eq_nil_iff.mp h
      refine (ih hrest).trans ?_
      rcases step_timeouts s e with ⟨hgranted, -⟩ | ⟨hoverran, -⟩ | ⟨rfl, -⟩ | ⟨-, -, -, -, hactive⟩
      · simp [hgranted] at hturn
      · simp [hoverran] at hturn
      · simp [Controller.turn?] at hturn
      · exact hactive

/-- A granted boost is active, and lives as long as boosts do when it is granted. -/
theorem Controller.blocked_granted {s : Controller} {observed lifetime : Duration} {n : Nat}
    (h : (s.blocked observed).2 = .boost n lifetime) :
    (s.blocked observed).1.active = s.active + 1 ∧ lifetime = s.lifetime := by
  obtain ⟨-, -, -, hlifetime, hnew⟩ := boost_cases h
  rw [hnew]
  exact ⟨rfl, hlifetime⟩

end Boost

namespace Pool

variable {α : Type}

/-- What an event says about boosts: one was granted, one ended, or one could not be counted. -/
def Event.turn? : Event α → Option Boost.Turn
  | .asked _ _ (.boost _ _) => some .granted
  | .boostExpired _ => some .expired
  | .pushBroke _ => some .overran
  | _ => none

/-- The boosts that were granted, those that ended and those that could not be counted, in order. -/
def turns (events : List (Event α)) : List Boost.Turn := events.filterMap Event.turn?

def brokenOff (history : List (Nat × Event α)) : List Nat :=
  history.filterMap fun h =>
    match h.2 with
    | .pushBroke push => some push
    | _ => none

theorem brokenOff_append (h k : List (Nat × Event α)) :
    brokenOff (h ++ k) = brokenOff h ++ brokenOff k := List.filterMap_append

/-- A step that makes no turn: it changes no deadline, and what it tells the controller, if
anything, makes none there. -/
structure Unturned (p : Pool α) (o : Outcome α) : Prop where
  boosts : o.1.boosts = p.boosts
  crews : p.crews ≤ o.1.crews
  informed : ∃ events, p.boost.turns events = [] ∧ o.1.boost = p.boost.run events
  calm : turns o.2 = []

/-- What a step does to the boosts of a pool and to its controller. -/
inductive Boosting (p : Pool α) (o : Outcome α) : Prop where
  | grant (push : Nat) (observed : Duration) (number : Nat) (runs : p.terminated = false)
    (granted : (p.boost.blocked observed).2 = .boost number p.boost.lifetime)
    (boost : o.1.boost = (p.boost.blocked observed).1)
    (boosts : o.1.boosts = p.boosts ++ [⟨p.crews, p.now + p.boost.lifetime.nanos⟩])
    (crews : o.1.crews = p.crews + 1) (now : o.1.now = p.now)
    (told : o.2 = [.asked push observed (.boost number p.boost.lifetime),
      .crewStarted p.crews number (some p.boost.lifetime)])
  | expire (d : Deadline) (known : d ∈ p.boosts) (due : p.terminated = true ∨ d.due ≤ p.now)
    (boost : o.1.boost = p.boost.expired) (boosts : o.1.boosts = p.boosts.erase d)
    (crews : o.1.crews = p.crews) (now : o.1.now = p.now) (told : o.2 = [.boostExpired d.crew])
  | breakOff (push : Nat) (observed : Duration)
    (overflow : (p.boost.blocked observed).2 = .overflow)
    (boost : o.1.boost = (p.boost.blocked observed).1) (boosts : o.1.boosts = p.boosts)
    (crews : o.1.crews = p.crews) (told : o.2 = [.pushBroke push])
  | keep (unturned : Unturned p o)

section Unturned

variable {p : Pool α} {o : Outcome α}

/-- A step that leaves the controller alone. -/
theorem Unturned.still (boost : o.1.boost = p.boost) (boosts : o.1.boosts = p.boosts)
    (crews : p.crews ≤ o.1.crews) (calm : turns o.2 = []) : Unturned p o :=
  ⟨boosts, crews, ⟨[], rfl, boost⟩, calm⟩

/-- A step that tells the controller of something that makes no turn. -/
theorem Unturned.inform (e : Boost.Event) (quiet : p.boost.turn? e = none)
    (boost : o.1.boost = (p.boost.step e).1) (boosts : o.1.boosts = p.boosts)
    (crews : p.crews ≤ o.1.crews) (calm : turns o.2 = []) : Unturned p o :=
  ⟨boosts, crews, ⟨[e], by simp [Boost.Controller.turns, quiet], boost⟩, calm⟩

theorem Unturned.after (h : Unturned p o) {events : List (Event α)} (calm : turns events = []) :
    Unturned p (after events o) where
  boosts := h.boosts
  crews := h.crews
  informed := h.informed
  calm := by
    rw [Pool.after, turns, List.filterMap_append]
    exact List.append_eq_nil_iff.mpr ⟨calm, h.calm⟩

theorem callLast_unturned {q : Pool α} (w : Worker α) (batch : List (Entry α))
    (boost : q.boost = p.boost) (boosts : q.boosts = p.boosts) (crews : q.crews = p.crews) :
    Unturned p (q.callLast w batch) := by
  unfold callLast
  split
  · exact Unturned.inform .stopped rfl (congrArg Boost.Controller.stopped boost) boosts crews.ge rfl
  · exact Unturned.still boost boosts crews.ge rfl

theorem works_unturned {w : Worker α} (h : Works p w o) : Unturned p o := by
  cases h with
  | noRoom holds unfit => exact Unturned.inform .stopped rfl rfl rfl le_rfl rfl
  | drain stopped halted =>
      refine (callLast_unturned (p := p) (q := { p with buffer := [] }) w _ rfl rfl rfl).after ?_
      rw [turns, List.filterMap_map]
      exact List.filterMap_eq_nil_iff.mpr fun _ _ => rfl
  | stop stopped runs => exact callLast_unturned w w.batch rfl rfl rfl
  | finish goes empty closed => exact callLast_unturned w w.batch rfl rfl rfl
  | take goes front =>
      unfold take
      dsimp only
      split <;> exact Unturned.still rfl rfl le_rfl rfl
  | wait goes empty opened ready => exact Unturned.still rfl rfl le_rfl rfl
  | wake goes empty opened waits late =>
      unfold idleFlush
      dsimp only
      split <;> exact Unturned.still rfl rfl le_rfl rfl

end Unturned

theorem resumes_boosting {p : Pool α} {b : Blocked α} {o : Outcome α} (h : Resumes p b o) :
    Boosting p o := by
  cases h with
  | refuse | accept => exact Boosting.keep (Unturned.still rfl rfl le_rfl rfl)
  | @deny runs wanted opened full w watch late denied whole =>
      refine Boosting.keep (Unturned.still rfl rfl le_rfl ?_)
      generalize (p.boost.blocked w.observed).2 = decision at denied whole
      cases decision with
      | boost number lifetime => exact absurd rfl (denied number lifetime)
      | overflow => exact absurd rfl whole
      | disabled | alreadyEscalated | atCapacity => rfl
  | @breakOff runs wanted opened full w watch late overflow =>
      exact Boosting.breakOff b.entry.push w.observed overflow rfl rfl rfl rfl
  | @boost runs wanted opened full w watch late number lifetime granted =>
      obtain ⟨-, rfl⟩ := Boost.Controller.blocked_granted granted
      exact Boosting.grant b.entry.push w.observed number runs granted rfl rfl rfl rfl rfl

/-- Every step grants a boost, ends one whose end has come, breaks a push off that could not be
granted one, or leaves the boosts alone. -/
theorem step_boosting {p : Pool α} {label : Label α} {o : Outcome α} (h : p.step label = some o) :
    Boosting p o := by
  cases step_acts h with
  | push item cancelled becomes =>
      cases becomes <;> exact Boosting.keep (Unturned.still rfl rfl le_rfl rfl)
  | resume waits becomes => exact resumes_boosting becomes
  | work here free works => exact Boosting.keep (works_unturned works)
  | addWorkers stay some_come countable limited =>
      exact Boosting.keep (Unturned.inform (.started _) rfl rfl rfl (Nat.le_succ p.crews) rfl)
  | startBroke => exact Boosting.keep (Unturned.still rfl rfl le_rfl rfl)
  | addNobody => exact Boosting.keep (Unturned.still rfl rfl (Nat.le_succ p.crews) rfl)
  | finishLast => exact Boosting.keep (Unturned.inform .stopped rfl rfl rfl le_rfl rfl)
  | setMaxWorkers limit =>
      exact Boosting.keep (Unturned.inform (.setMaxWorkers limit) rfl rfl rfl le_rfl rfl)
  | manage number limit lifetime =>
      exact Boosting.keep (Unturned.inform (.manage number limit lifetime) rfl rfl rfl le_rfl rfl)
  | @expireBoost d known due =>
      obtain ⟨stopped, hstop⟩ := stopCrew_eq p d.crew
      rw [hstop]
      exact Boosting.expire d (mem_of_find?_key known).1 due rfl rfl rfl rfl rfl
  | stopCrew crew =>
      obtain ⟨stopped, hstop⟩ := stopCrew_eq p crew
      rw [hstop]
      exact Boosting.keep (Unturned.still rfl rfl le_rfl rfl)
  | @endStay d =>
      obtain ⟨stopped, hstop⟩ := stopCrew_eq p d.crew
      rw [hstop]
      exact Boosting.keep (Unturned.still rfl rfl le_rfl rfl)
  | finish | flushed | flushFailed | flushWaits | giveUpFlush | pollFlushed | cancelPush | dropPush
  | dropStay | pollAgain | cancelFlush | dropFlush | shutdown | terminate | tick =>
      exact Boosting.keep (Unturned.still rfl rfl le_rfl rfl)

/-- A step tells the controller of the turn that it tells of itself. -/
theorem Boosting.informed {p : Pool α} {o : Outcome α} (h : Boosting p o) :
    ∃ events, p.boost.turns events = turns o.2 ∧ o.1.boost = p.boost.run events := by
  cases h with
  | grant push observed number runs granted boost boosts crews now told =>
      refine ⟨[.blocked observed], ?_, boost⟩
      rw [told]
      simp [Boost.Controller.turns, Boost.Controller.turn?, granted, turns, Event.turn?]
  | expire d known due boost boosts crews now told =>
      refine ⟨[.expired], ?_, boost⟩
      rw [told]
      rfl
  | breakOff push observed overflow boost boosts crews told =>
      refine ⟨[.blocked observed], ?_, boost⟩
      rw [told]
      simp [Boost.Controller.turns, Boost.Controller.turn?, overflow, turns, Event.turn?]
  | keep unturned =>
      rw [unturned.calm]
      exact unturned.informed

/-- As many boosts are active as have their end to come. -/
theorem Boosting.active {p : Pool α} {o : Outcome α} (h : Boosting p o)
    (hactive : p.boost.active = p.boosts.length) : o.1.boost.active = o.1.boosts.length := by
  cases h with
  | grant push observed number runs granted boost boosts crews now told =>
      rw [boost, (Boost.Controller.blocked_granted granted).1, boosts, List.length_append, hactive]
      rfl
  | expire d known due boost boosts crews now told =>
      rw [boost, boosts, List.length_erase_of_mem known, ← hactive]
      rfl
  | breakOff push observed overflow boost boosts crews told =>
      rw [boost, (Boost.overflow_cases overflow).2.2, boosts, ← hactive]
      rfl
  | keep unturned =>
      obtain ⟨events, hnone, hboost⟩ := unturned.informed
      rw [hboost, Boost.active_of_turns_nil hnone, unturned.boosts, hactive]

def Label.clock (now : Nat) : Label α → Nat
  | .tick later => later
  | _ => now

/-- Only a tick moves time, only `terminate` ends the pool, and it or `shutdown` closes it. -/
structure Elapses (p : Pool α) (label : Label α) (q : Pool α) : Prop where
  now : q.now = label.clock p.now
  later : p.now ≤ q.now
  terminated : q.terminated = true ↔ p.terminated = true ∨ label = .terminate
  closed : q.closed = true ↔ p.closed = true ∨ label = .shutdown ∨ label = .terminate

theorem Elapses.still {p q : Pool α} {label : Label α} (clock : label.clock p.now = p.now)
    (opens : label ≠ .shutdown) (goes : label ≠ .terminate) (now : q.now = p.now)
    (terminated : q.terminated = p.terminated) (closed : q.closed = p.closed) :
    Elapses p label q where
  now := now.trans clock.symm
  later := now.ge
  terminated := by simp [terminated, goes]
  closed := by simp [closed, opens, goes]

theorem works_elapses {p : Pool α} {w : Worker α} {o : Outcome α} (h : Works p w o) :
    o.1.now = p.now ∧ o.1.terminated = p.terminated ∧ o.1.closed = p.closed := by
  have hcall (q : Pool α) (batch : List (Entry α)) :
      (q.callLast w batch).1.now = q.now ∧ (q.callLast w batch).1.terminated = q.terminated ∧
        (q.callLast w batch).1.closed = q.closed := by
    unfold callLast
    split <;> exact ⟨rfl, rfl, rfl⟩
  cases h with
  | noRoom holds unfit => exact ⟨rfl, rfl, rfl⟩
  | drain stopped halted => exact hcall { p with buffer := [] } (w.batch ++ p.buffer)
  | stop stopped runs => exact hcall p w.batch
  | finish goes empty closed => exact hcall p w.batch
  | take goes front =>
      unfold take
      dsimp only
      split <;> exact ⟨rfl, rfl, rfl⟩
  | wait goes empty opened ready => exact ⟨rfl, rfl, rfl⟩
  | wake goes empty opened waits late =>
      unfold idleFlush
      dsimp only
      split <;> exact ⟨rfl, rfl, rfl⟩

theorem step_elapses {p : Pool α} {label : Label α} {o : Outcome α} (h : p.step label = some o) :
    Elapses p label o.1 := by
  cases step_acts h with
  | push item cancelled becomes =>
      cases becomes <;> exact Elapses.still rfl nofun nofun rfl rfl rfl
  | resume waits becomes => cases becomes <;> exact Elapses.still rfl nofun nofun rfl rfl rfl
  | work here free works =>
      obtain ⟨hnow, hterminated, hclosed⟩ := works_elapses works
      exact Elapses.still rfl nofun nofun hnow hterminated hclosed
  | stopCrew crew =>
      obtain ⟨stopped, hstop⟩ := stopCrew_eq p crew
      rw [hstop]
      exact Elapses.still rfl nofun nofun rfl rfl rfl
  | @expireBoost d | @endStay d =>
      obtain ⟨stopped, hstop⟩ := stopCrew_eq p d.crew
      rw [hstop]
      exact Elapses.still rfl nofun nofun rfl rfl rfl
  | shutdown => exact ⟨rfl, le_rfl, by simp, by simp⟩
  | terminate => exact ⟨rfl, le_rfl, by simp, by simp⟩
  | tick later => exact ⟨rfl, later, by simp, by simp⟩
  | addNobody | addWorkers | startBroke | finishLast | finish | flushed | flushFailed | flushWaits
  | giveUpFlush | pollFlushed | cancelPush | dropPush | dropStay | pollAgain | cancelFlush
  | dropFlush | setMaxWorkers | manage => exact Elapses.still rfl nofun nofun rfl rfl rfl

section Run

variable {config : Config} {may : Pool α → Label α → Prop} {p : Pool α} {labels : List (Label α)}
  {history : List (Nat × Event α)}

/-- A pool is over once `terminate` has been called. -/
theorem Run.terminated_iff (run : Run config may p labels history) :
    p.terminated = true ↔ .terminate ∈ labels := by
  induction run with
  | start now => simp [new]
  | @next p q labels history label events run hmay hstep ih =>
      rw [(step_elapses hstep).terminated, ih, List.mem_append, List.mem_singleton, eq_comm]

/-- A pool is closed once `shutdown` or `terminate` has been called. -/
theorem Run.closed_iff (run : Run config may p labels history) :
    p.closed = true ↔ .shutdown ∈ labels ∨ .terminate ∈ labels := by
  induction run with
  | start now => simp [new]
  | @next p q labels history label events run hmay hstep ih =>
      rw [(step_elapses hstep).closed, ih, List.mem_append, List.mem_append, List.mem_singleton,
        List.mem_singleton, eq_comm (a := label), eq_comm (a := label), or_or_or_comm]

end Run

end Pool

end Coordination
