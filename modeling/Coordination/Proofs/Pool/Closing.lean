import Coordination.Proofs.Pool.Motion
import Coordination.Proofs.Pool.Step

/-!
What a pool does not take back. A pool that is closed stays closed, one that is terminated stays
terminated, and the token of a crew that has fired has fired for good. Every push that reaches a
closed pool is refused, so its buffer only gets shorter.
-/

namespace Coordination.Pool

variable {α : Type}

section Latches

/-- What has ended stays ended. -/
structure Latched (p q : Pool α) : Prop where
  closed : p.closed = true → q.closed = true
  terminated : p.terminated = true → q.terminated = true
  stopped : ∀ crew, crew ∈ p.stopped → crew ∈ q.stopped

theorem Latched.same {p q : Pool α} (hclosed : q.closed = p.closed)
    (hterminated : q.terminated = p.terminated) (hstopped : q.stopped = p.stopped) :
    Latched p q := by
  constructor
  · exact fun h => hclosed.trans h
  · exact fun h => hterminated.trans h
  · intro crew h
    rw [hstopped]
    exact h

theorem Latched.crewStopped {p q : Pool α} (h : Latched p q) {crew : Nat}
    (hcrew : p.crewStopped crew = true) : q.crewStopped crew = true := by
  simp only [Pool.crewStopped, Bool.or_eq_true, List.contains_iff_mem] at hcrew ⊢
  exact hcrew.imp h.terminated (h.stopped crew)

theorem stopCrew_latched (p : Pool α) (crew : Nat) : Latched p (p.stopCrew crew) := by
  unfold stopCrew
  split
  · exact Latched.same rfl rfl rfl
  · exact ⟨id, id, fun _ h => List.mem_cons_of_mem _ h⟩

theorem stopCrew_crewStopped (p : Pool α) (crew other : Nat) :
    (p.stopCrew crew).crewStopped other = true ↔ p.crewStopped other = true ∨ other = crew := by
  unfold stopCrew
  split
  · rename_i hstopped
    refine ⟨Or.inl, fun h => h.elim id ?_⟩
    rintro rfl
    simp only [crewStopped, hstopped, Bool.or_true]
  · simp only [crewStopped, Bool.or_eq_true, List.contains_iff_mem, List.mem_cons]
    rw [or_comm (b := other ∈ p.stopped), or_assoc]

theorem pushes_latched {p : Pool α} {item : α} {cancelled : Bool} {o : Outcome α}
    (h : Pushes p item cancelled o) : Latched p o.1 := by
  cases h <;> exact Latched.same rfl rfl rfl

theorem callLast_latched (p : Pool α) (w : Worker α) (batch : List (Entry α)) :
    Latched p (p.callLast w batch).1 := by
  unfold callLast
  split <;> exact Latched.same rfl rfl rfl

theorem works_latched {p : Pool α} {w : Worker α} {o : Outcome α} (h : Works p w o) :
    Latched p o.1 := by
  cases h with
  | noRoom holds unfit => exact Latched.same rfl rfl rfl
  | drain stopped halted =>
      obtain ⟨hclosed, hterminated, hstopped⟩ :=
        callLast_latched ({ p with buffer := [] } : Pool α) w (w.batch ++ p.buffer)
      exact ⟨hclosed, hterminated, hstopped⟩
  | stop stopped runs => exact callLast_latched p w w.batch
  | finish goes empty closed => exact callLast_latched p w w.batch
  | take goes front =>
      unfold take
      dsimp only
      split <;> exact Latched.same rfl rfl rfl
  | wait goes empty opened ready => exact Latched.same rfl rfl rfl
  | wake goes empty opened waits late =>
      unfold idleFlush
      dsimp only
      split <;> exact Latched.same rfl rfl rfl

theorem resumes_latched {p : Pool α} {b : Blocked α} {o : Outcome α} (h : Resumes p b o) :
    Latched p o.1 := by
  cases h <;> exact Latched.same rfl rfl rfl

theorem step_latched {p : Pool α} {label : Label α} {o : Outcome α} (ho : p.step label = some o) :
    Latched p o.1 := by
  cases step_acts ho with
  | push item cancelled becomes => exact pushes_latched becomes
  | resume waits becomes => exact resumes_latched becomes
  | work here free works => exact works_latched works
  | stopCrew crew => exact stopCrew_latched p crew
  | expireBoost known due | endStay known goes due =>
      obtain ⟨hclosed, hterminated, hstopped⟩ := stopCrew_latched p _
      exact ⟨hclosed, hterminated, hstopped⟩
  | shutdown => exact ⟨fun _ => rfl, id, fun _ h => h⟩
  | terminate => exact ⟨fun _ => rfl, fun _ => rfl, fun _ h => h⟩
  | cancelPush | dropPush | addNobody | addWorkers | startBroke | finishLast | finish | dropStay
  | flushed | flushFailed | flushWaits | giveUpFlush | pollFlushed | pollAgain | cancelFlush
  | dropFlush | setMaxWorkers | manage | tick => exact Latched.same rfl rfl rfl

end Latches

section Closed

theorem accepted_append (h k : List (Nat × Event α)) :
    accepted (h ++ k) = accepted h ++ accepted k := List.filterMap_append ..

theorem refused_append (h k : List (Nat × Event α)) : refused (h ++ k) = refused h ++ refused k :=
  List.filterMap_append ..

/-- Items enter a buffer in the steps of pushes only. -/
theorem Moves.entered {capacity : Nat} {label : Label α} {f g : Flow α} {t : Tidings α}
    (h : Moves capacity label f t g) :
    (t.accepted = [] ∧ ∃ taken, f.buffer = taken ++ g.buffer) ∨
      t.refused = [] ∧
        ((∃ item cancelled, label = .push item cancelled) ∨ ∃ n, label = .resume n) := by
  cases h with
  | accept item cancelled room => exact Or.inr ⟨rfl, Or.inl ⟨item, cancelled, rfl⟩⟩
  | enter waits room => exact Or.inr ⟨rfl, Or.inr ⟨_, rfl⟩⟩
  | work id front balance => exact Or.inl ⟨rfl, _, front⟩
  | turnAway | wait | giveUp | drop | finish | stay => exact Or.inl ⟨rfl, [], rfl⟩

/-- A push that reaches a closed pool is refused. -/
theorem pushes_refused {p : Pool α} (closed : p.closed = true) {item : α} {cancelled : Bool}
    {o : Outcome α} (h : Pushes p item cancelled o) : ∃ n error, o.2 = [.refused n error] := by
  cases h with
  | turnAway halted => exact ⟨_, _, rfl⟩
  | refuse runs error why => exact ⟨_, _, rfl⟩
  | accept runs opened room => simp [closed] at opened
  | block runs opened full wanted watch watches => simp [closed] at opened

theorem resumes_refused {p : Pool α} (closed : p.closed = true) {b : Blocked α} {o : Outcome α}
    (h : Resumes p b o) : ∃ n error, o.2 = [.refused n error] := by
  cases h with
  | refuse error why => exact ⟨_, _, rfl⟩
  | accept runs wanted opened room => simp [closed] at opened
  | deny runs wanted opened | boost runs wanted opened | breakOff runs wanted opened =>
      simp [closed] at opened

/-- Nothing enters the buffer of a closed pool. -/
theorem closed_step {p : Pool α} (hroster : Roster p) (closed : p.closed = true)
    {label : Label α} {o : Outcome α} (ho : p.step label = some o) :
    accepted (stamp p.now o.2) = [] ∧ ∃ taken, p.buffer = taken ++ o.1.buffer := by
  rcases ((step_moved hroster ho).moves p.now).entered with hout | ⟨hrefused, hpush⟩
  · exact hout
  · obtain ⟨n, error, htold⟩ : ∃ n error, o.2 = [.refused n error] := by
      rcases hpush with ⟨item, cancelled, rfl⟩ | ⟨n, rfl⟩
      · obtain rfl := Option.some.inj ho
        exact pushes_refused closed (push_pushes p item cancelled)
      · obtain ⟨b, -, -, hresumes⟩ := resume_resumes ho
        exact resumes_refused closed hresumes
    have hone : refused (stamp p.now o.2) = [n] := by
      rw [htold]
      rfl
    exact absurd (hone.symm.trans hrefused) (List.cons_ne_nil n [])

theorem closed_buffer_nil {p : Pool α} (hroster : Roster p) (closed : p.closed = true)
    (hempty : p.buffer = []) {label : Label α} {o : Outcome α} (ho : p.step label = some o) :
    o.1.buffer = [] := by
  obtain ⟨-, taken, htaken⟩ := closed_step hroster closed ho
  rw [hempty] at htaken
  exact (List.append_eq_nil_iff.mp htaken.symm).2

end Closed

end Coordination.Pool
