import Coordination.Proofs.Pool.Closing
import Coordination.Proofs.Pool.Passage
import Coordination.Proofs.Pool.Rest

/-!
Closing is permanent. Once a pool is closed nothing enters its buffer, no boost is granted, and
every push that was blocked then or is made later is refused: as cancelled only if its caller asked
for it, and as closed otherwise. What is in the buffer can only be taken out of it, so the worker of
a terminated pool that takes all that is left finds no more than was there at the end.
-/

namespace Coordination.Pool

variable {α : Type}

section Closed

/-- A new push on a closed pool is refused at once. -/
theorem closed_push {p : Pool α} (closed : p.closed = true) (item : α) (cancelled : Bool) :
    (∃ error, (p.push item cancelled).2 = [.refused p.pushes error]) ∧
      (p.push item cancelled).1.awaiting = p.awaiting := by
  have hpushes := push_pushes p item cancelled
  generalize p.push item cancelled = o at hpushes
  cases hpushes with
  | turnAway halted => exact ⟨⟨_, rfl⟩, rfl⟩
  | refuse runs error why => exact ⟨⟨_, rfl⟩, rfl⟩
  | accept runs opened room => simp [closed] at opened
  | block runs opened full wanted watch watches => simp [closed] at opened

/-- A push that waits on a closed pool can go on, and is refused. -/
theorem closed_resume {p : Pool α} (closed : p.closed = true) {b : Blocked α}
    (hb : p.blocked? b.entry.push = some b) :
    ∃ q error, p.resume b.entry.push = some (q, [.refused b.entry.push error]) := by
  cases hresume : p.resume b.entry.push with
  | none =>
      obtain ⟨-, -, hopened, -⟩ := resume_none hb hresume
      simp [closed] at hopened
  | some o =>
      obtain ⟨c, -, hpush, hresumes⟩ := resume_resumes hresume
      rw [← hpush]
      cases hresumes with
      | refuse error why => exact ⟨_, error, rfl⟩
      | accept runs wanted opened room => simp [closed] at opened
      | deny runs wanted opened | boost runs wanted opened | breakOff runs wanted opened =>
          simp [closed] at opened

/-- An answer to a blocked push that grants a boost, or a push that breaks off over one. -/
def Event.Boosts : Event α → Prop
  | .asked _ _ (.boost _ _) | .pushBroke _ => True
  | _ => False

/-- Only a push that waits on a pool that is not closed is granted a boost, or breaks off. -/
theorem closed_unboosted {p : Pool α} (closed : p.closed = true) {label : Label α} {o : Outcome α}
    (ho : p.step label = some o) : ∀ e ∈ o.2, ¬ e.Boosts := by
  cases step_acts ho with
  | push item cancelled becomes =>
      obtain ⟨m, error, htold⟩ := pushes_refused closed becomes
      simp [htold, Event.Boosts]
  | resume waits becomes =>
      obtain ⟨m, error, htold⟩ := resumes_refused closed becomes
      simp [htold, Event.Boosts]
  | work here free works =>
      intro e he hboosts
      have htold := works_told works e he
      cases e <;> first | exact htold | exact hboosts
  | addWorkers | finishLast | finish => simp [after, hire, exit, Event.Boosts]
  | startBroke | expireBoost | flushed | flushFailed | flushWaits | giveUpFlush | pollFlushed =>
      simp [Event.Boosts]
  | cancelPush | dropPush | addNobody | stopCrew | dropStay | endStay | pollAgain | cancelFlush
  | dropFlush | setMaxWorkers | manage | shutdown | terminate | tick => simp

/-- A push that waits goes on waiting in the steps of others. -/
theorem Moves.still_waits {capacity : Nat} {label : Label α} {f g : Flow α} {u : Tidings α}
    (h : Moves capacity label f u g) {n : Nat} (hn : n ∈ f.waiting.map Entry.push)
    (stays : label ≠ .dropPush n) (others_go : label ≠ .resume n) :
    n ∈ g.waiting.map Entry.push := by
  have hothers (m : Nat) (hne : n ≠ m) : n ∈ (others m f.waiting).map Entry.push := by
    rw [others_push]
    exact List.mem_filter.mpr ⟨hn, decide_eq_true hne⟩
  cases h with
  | wait item cancelled =>
      rw [List.map_append]
      exact List.mem_append_left _ hn
  | @enter _ e | @giveUp _ e =>
      refine hothers e.push ?_
      rintro rfl
      exact others_go rfl
  | drop m own =>
      refine hothers m ?_
      rintro rfl
      exact own.elim stays others_go
  | turnAway | accept | work | finish | stay => exact hn

theorem mem_brokenOff {now n : Nat} {events : List (Event α)} :
    n ∈ brokenOff (stamp now events) ↔ .pushBroke n ∈ events := by
  constructor
  · intro h
    obtain ⟨x, hx, hpush⟩ := List.mem_filterMap.mp h
    obtain ⟨e, he, rfl⟩ := List.mem_map.mp hx
    cases e with
    | pushBroke m =>
        obtain rfl : m = n := Option.some.inj hpush
        exact he
    | _ => cases hpush
  · intro h
    exact List.mem_filterMap.mpr ⟨(now, .pushBroke n), List.mem_map_of_mem h, rfl⟩

/-- A push that waits goes on waiting, is answered or breaks off, unless its caller goes away. -/
theorem step_answered {p : Pool α} (h : Roster p) {label : Label α} {o : Outcome α}
    (ho : p.step label = some o) {n : Nat} (hn : n ∈ p.awaiting) (stays : label ≠ .dropPush n) :
    n ∈ o.1.awaiting ∨ n ∈ accepted (stamp p.now o.2) ∨ n ∈ refused (stamp p.now o.2) ∨
      n ∈ brokenOff (stamp p.now o.2) := by
  by_cases hown : label = .resume n
  · subst hown
    obtain ⟨b, -, rfl, hresumes⟩ := resume_resumes ho
    have hwaits : b.entry.push ∈ (p.unwatch b.entry.push).awaiting := by
      rw [← flow_waiting, unwatch_flow, flow_waiting]
      exact hn
    cases hresumes with
    | refuse error why => exact Or.inr (Or.inr (Or.inl (List.mem_singleton_self _)))
    | accept runs wanted opened room => exact Or.inr (Or.inl (List.mem_singleton_self _))
    | deny | boost => exact Or.inl hwaits
    | breakOff => exact Or.inr (Or.inr (Or.inr (List.mem_singleton_self _)))
  · left
    have hmoves := (step_moved h ho).moves p.now
    rw [← flow_waiting] at hn ⊢
    exact hmoves.still_waits hn stays hown

/-- What a pool that was closed in state `p` has come to in state `q`, after these steps and
events. -/
structure Shut (p q : Pool α) (labels : List (Label α)) (history : List (Nat × Event α)) :
    Prop where
  closed : q.closed = true
  nothing_enters : accepted history = []
  no_boost : ∀ t n observed number lifetime,
    (t, .asked n observed (.boost number lifetime)) ∉ history
  none_breaks : brokenOff history = []
  /-- Every push that was blocked is still blocked or refused, unless its caller went away. -/
  blocked_refused : ∀ n ∈ p.awaiting, .dropPush n ∉ labels → n ∈ q.awaiting ∨ n ∈ refused history
  /-- Every push made since is refused; none waits. -/
  later_refused : ∀ n, p.pushes ≤ n → n < q.pushes → n ∈ refused history
  none_waits : ∀ n ∈ q.awaiting, n ∈ p.awaiting

theorem Shut.start {p : Pool α} (closed : p.closed = true) : Shut p p [] [] where
  closed := closed
  nothing_enters := rfl
  no_boost := by simp
  none_breaks := rfl
  blocked_refused := fun n hn _ => Or.inl hn
  later_refused := fun n hle hlt => absurd hlt (not_lt.mpr hle)
  none_waits := fun n hn => hn

section Next

variable {p q : Pool α} {labels : List (Label α)} {history : List (Nat × Event α)}
  {label : Label α} {o : Outcome α}

/-- In a closed pool a step makes a push and refuses it, or makes none; and nobody begins to
wait. -/
theorem closed_step_pushes (closed : q.closed = true) (h : Roster q) (ho : q.step label = some o) :
    (o.1.pushes = q.pushes ∨ o.1.pushes = q.pushes + 1 ∧ q.pushes ∈ refused (stamp q.now o.2)) ∧
      ∀ n ∈ o.1.awaiting, n ∈ q.awaiting := by
  have hmade : o.1.pushes = q.pushes + label.item?.toList.length :=
    ((step_moved h ho).moves q.now).pushes_eq
  by_cases hpush : ∃ item cancelled, label = .push item cancelled
  · obtain ⟨item, cancelled, rfl⟩ := hpush
    obtain rfl := Option.some.inj ho
    obtain ⟨⟨error, htold⟩, hwaits⟩ := closed_push closed item cancelled
    refine ⟨Or.inr ⟨hmade, ?_⟩, fun n hn => hwaits ▸ hn⟩
    rw [htold]
    exact List.mem_singleton_self _
  · constructor
    · left
      cases hitem : label.item? with
      | none => simpa [hitem] using hmade
      | some item =>
          unfold Label.item? at hitem
          split at hitem
          · exact absurd ⟨_, _, rfl⟩ hpush
          · cases hitem
    · intro n hn
      obtain ⟨b, hb, rfl⟩ := List.mem_map.mp hn
      cases step_waits h ho hb with
      | new item made number wanted => exact absurd ⟨item, false, made⟩ hpush
      | still a before number wish => exact number ▸ List.mem_map_of_mem before

theorem Shut.next (shut : Shut p q labels history) (h : Roster q) (ho : q.step label = some o) :
    Shut p o.1 (labels ++ [label]) (history ++ stamp q.now o.2) := by
  obtain ⟨hpushes, hwaits⟩ := closed_step_pushes shut.closed h ho
  obtain ⟨hnone, -⟩ := closed_step h shut.closed ho
  have hunboosted := closed_unboosted shut.closed ho
  have hwhole : brokenOff (stamp q.now o.2) = [] :=
    List.eq_nil_iff_forall_not_mem.mpr fun n hn => hunboosted _ (mem_brokenOff.mp hn) trivial
  constructor
  · exact (step_latched ho).closed shut.closed
  · rw [accepted_append, shut.nothing_enters, hnone]
    rfl
  · intro t n observed number lifetime hmem
    rcases List.mem_append.mp hmem with hpast | hnow
    · exact shut.no_boost t n observed number lifetime hpast
    · obtain ⟨-, he⟩ := mem_stamp.mp hnow
      exact hunboosted _ he trivial
  · rw [brokenOff_append, shut.none_breaks, hwhole]
    rfl
  · intro n hn hstays
    rw [List.mem_append, List.mem_singleton, not_or] at hstays
    rw [refused_append, List.mem_append]
    rcases shut.blocked_refused n hn hstays.1 with hwaiting | hrefused
    · rcases step_answered h ho hwaiting (Ne.symm hstays.2) with
        hstill | haccepted | hrefused | hbroken
      · exact Or.inl hstill
      · rw [hnone] at haccepted
        cases haccepted
      · exact Or.inr (Or.inr hrefused)
      · rw [hwhole] at hbroken
        cases hbroken
    · exact Or.inr (Or.inl hrefused)
  · intro n hle hlt
    rw [refused_append, List.mem_append]
    rcases hpushes with hsame | ⟨hone, hrefused⟩
    · exact Or.inl (shut.later_refused n hle (hsame ▸ hlt))
    · rw [hone] at hlt
      rcases Nat.lt_succ_iff_lt_or_eq.mp hlt with hbefore | rfl
      · exact Or.inl (shut.later_refused n hle hbefore)
      · exact Or.inr hrefused
  · exact fun n hn => shut.none_waits n (hwaits n hn)

end Next

end Closed

section Drain

/-- The worker of a terminated pool takes all that is in the buffer, in one go, unless it ends for
want of room before it takes anything. -/
theorem terminated_work {p q : Pool α} {id : Nat} {events : List (Event α)}
    (halted : p.terminated = true) (h : p.work id = some (q, events)) :
    taken (stamp p.now events) = p.buffered ∧ q.buffer = [] ∨
      p.batchFits = false ∧ taken (stamp p.now events) = [] ∧ q.buffer = p.buffer := by
  have hstopped (crew : Nat) : p.crewStopped crew = true := by simp [crewStopped, halted]
  have hlast (r : Pool α) (w : Worker α) (batch : List (Entry α)) :
      takings (stamp p.now (r.callLast w batch).2) = [] ∧
        (r.callLast w batch).1.buffer = r.buffer := by
    unfold callLast
    split <;> exact ⟨rfl, rfl⟩
  obtain ⟨w, -, -, -, hworks⟩ := work_works h
  generalize ho : (q, events) = o at hworks
  cases hworks with
  | noRoom holds unfit =>
      obtain ⟨rfl, rfl⟩ := Prod.mk.inj ho
      exact Or.inr ⟨unfit, rfl, rfl⟩
  | drain stopped _ =>
      left
      obtain ⟨rfl, rfl⟩ := Prod.mk.inj ho
      obtain ⟨htakings, hempty⟩ := hlast { p with buffer := [] } w (w.batch ++ p.buffer)
      have htook := congrArg Account.takings (account_took p.now w.id p.buffer
        (callLast { p with buffer := [] } w (w.batch ++ p.buffer)).2)
      refine ⟨?_, hempty⟩
      change (Account.takings (account (stamp p.now _))).map Prod.snd = p.buffered
      rw [htook, htakings]
      simp [buffered, Function.comp_def]
  | stop stopped runs => simp [halted] at runs
  | take goes front => simp [hstopped] at goes
  | finish goes empty closed => simp [hstopped] at goes
  | wait goes empty opened ready => simp [hstopped] at goes
  | wake goes empty opened waits late => simp [hstopped] at goes

end Drain

section Run

variable {config : Config} {p q : Pool α} {labels more : List (Label α)}
  {history later : List (Nat × Event α)}

theorem Run.shut (run : Run config AnyStep p labels history) (closed : p.closed = true)
    (hlater : p.replay more = some (q, later)) : Shut p q more later := by
  have hany : p.Allows AnyStep more := allows_of_forall (fun _ _ _ => trivial) p
  have hkeeps (q : Pool α) (more : List (Label α)) (later : List (Nat × Event α)) (label : Label α)
      (r : Pool α) (events : List (Event α)) (hkept : Roster q ∧ Shut p q more later)
      (_ : AnyStep q label) (hstep : q.step label = some (r, events)) :
      Roster r ∧ Shut p r (more ++ [label]) (later ++ stamp q.now events) :=
    ⟨(step_moved hkept.1 hstep).roster, hkept.2.next hkept.1 hstep⟩
  exact (replay_keeps hkeeps ⟨run.roster.1, Shut.start closed⟩ hany hlater).2

/-- What was in the buffer when the pool was closed has been taken out of it, or is in it. -/
theorem Run.taken_later (run : Run config AnyStep p labels history)
    (hlater : p.replay more = some (q, later)) (hnone : accepted later = []) :
    taken later ++ q.buffered = p.buffered := by
  have hbefore := run.accepted_eq
  have hafter := (run.replay (fun _ _ _ => trivial) hlater).accepted_eq
  have htaken : taken (history ++ later) = taken history ++ taken later := by
    simp [taken, takings_append]
  rw [accepted_append, hnone, List.append_nil, hbefore, htaken, List.append_assoc] at hafter
  exact (List.append_cancel_left hafter).symm

/-- Closing is permanent. A pool is closed once `shutdown` or `terminate` has been called, in
whatever order and however often, and a terminated one is. From then on, whatever else is done, it
stays closed, nothing enters the buffer, no boost is granted, and every push that was blocked or is
made later is refused: as cancelled only if its caller asked for it. No push is left waiting, as
each can go on at once to be refused. So after `terminate` the buffer only gets shorter, and a
worker that takes all that is left takes no more items than were in it then. Only a worker without
room for a batch takes nothing. -/
theorem closing_is_permanent (run : Run config AnyStep p labels history) :
    (p.terminated = true → p.closed = true) ∧
    (p.closed = true ↔ .shutdown ∈ labels ∨ .terminate ∈ labels) ∧
    (p.closed = true → ∀ more q later, p.replay more = some (q, later) →
      Shut p q more later ∧
      (∀ t n error, (t, .refused n error) ∈ later →
        error = .closed ∨ error = .cancelled ∧ n ∈ givenUp 0 (labels ++ more)) ∧
      (∀ n ∈ q.awaiting, ∃ r error, q.step (.resume n) = some (r, [.refused n error])) ∧
      (q.Resting → q.awaiting = [])) ∧
    (∀ more q later, p.replay (.terminate :: more) = some (q, later) →
      taken later ++ q.buffered = p.buffered ∧
      ∀ id r events, q.step (.work id) = some (r, events) →
        (taken (stamp q.now events) = q.buffered ∧ r.buffer = [] ∨
          q.batchFits = false ∧ taken (stamp q.now events) = [] ∧ r.buffer = q.buffer) ∧
        (taken (stamp q.now events)).length ≤ p.buffer.length) := by
  refine ⟨?_, run.closed_iff, ?_, ?_⟩
  · rw [run.terminated_iff, run.closed_iff]
    exact Or.inr
  · intro closed more q later hlater
    have whole := run.replay (fun _ _ _ => trivial) hlater
    have hshut := run.shut closed hlater
    have hgoes : ∀ n ∈ q.awaiting,
        ∃ r error, q.step (.resume n) = some (r, [.refused n error]) := by
      intro n hn
      obtain ⟨b, hb, rfl⟩ := List.mem_map.mp hn
      exact closed_resume hshut.closed (whole.blocked?_of_mem hb)
    refine ⟨hshut, ?_, hgoes, ?_⟩
    · intro t n error hrefused
      cases error with
      | closed => exact Or.inl rfl
      | cancelled => exact Or.inr ⟨rfl, whole.refused_cancelled (List.mem_append_right _ hrefused)⟩
    · intro hrest
      apply List.eq_nil_iff_forall_not_mem.mpr
      intro n hn
      obtain ⟨r, error, hresume⟩ := hgoes n hn
      simp [hrest (.resume n) rfl] at hresume
  · intro more q later hlater
    obtain ⟨r, events, rest, hstep, hrest, rfl⟩ := replay_cons hlater
    obtain ⟨rfl, rfl⟩ := Prod.mk.inj (Option.some.inj hstep)
    have hshut := (Run.next run trivial hstep).shut rfl hrest
    have hfront := run.taken_later hlater hshut.nothing_enters
    have whole := run.replay (fun _ _ _ => trivial) hlater
    have halted : q.terminated = true := whole.terminated_iff.mpr (by simp)
    refine ⟨hfront, ?_⟩
    intro id s events hwork
    have hdrains := terminated_work halted hwork
    refine ⟨hdrains, ?_⟩
    rcases hdrains with ⟨htaken, -⟩ | ⟨-, htaken, -⟩
    · have hlength := congrArg List.length hfront
      rw [htaken]
      simp only [List.length_append, buffered, List.length_map] at hlength ⊢
      omega
    · rw [htaken]
      exact Nat.zero_le _

end Run

/-- A push is blocked while pushes watch the block timeout, and another while they do not; the timer
of the first is due and the caller of the second gives up when the pool is shut down. -/
def shuttingSteps : List (Label Nat) :=
  [.addWorkers 1 none, .push 10 false, .work 0, .push 20 false, .push 30 false,
    .setMaxWorkers (some 0), .push 40 false, .tick 50, .cancelPush 3, .shutdown]

/-- Both are refused, and so are two pushes that come late; the worker comes back and takes what is
left. -/
def latecomingSteps : List (Label Nat) :=
  [.resume 2, .push 50 false, .resume 3, .terminate, .push 60 true, .finish 0 false, .work 0]

theorem closing_is_permanent_late : ∃ (p q : Pool Nat) (history later : List (Nat × Event Nat)),
    Run tightConfig AnyStep p shuttingSteps history ∧ p.replay latecomingSteps = some (q, later) ∧
    p.blocked = [⟨⟨2, 30⟩, some ⟨.ofNanos 50, 50⟩, false⟩, ⟨⟨3, 40⟩, none, true⟩] ∧
    (50, .refused 2 .closed) ∈ later ∧ (50, .refused 3 .cancelled) ∈ later ∧
    refused later = [2, 4, 3, 5] ∧ taken later = [1] ∧ givenUp 0 shuttingSteps = [3] ∧
    p.closed = true ∧ Shut p q latecomingSteps later := by
  have run : Run tightConfig AnyStep _ ([] ++ shuttingSteps) _ :=
    (Run.start 0 8).replay (fun _ _ _ => trivial) rfl
  obtain ⟨-, hclosed, hforever, -⟩ := closing_is_permanent run
  have closed := hclosed.mpr (Or.inl (by decide))
  have hshut := (hforever closed latecomingSteps _ _ rfl).1
  exact ⟨_, _, _, _, run, rfl, by decide, by decide, by decide, by decide, by decide, by decide,
    closed, hshut⟩

end Coordination.Pool
