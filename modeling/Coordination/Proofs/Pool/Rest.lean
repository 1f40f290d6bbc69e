import Coordination.Proofs.Pool.Control
import Coordination.Proofs.Pool.Wishes

/-!
Pools at rest. Whatever can end the wait of a push, its caller's wish, the end of the pool or room
in the buffer, lets the push go on at once, and so it does when its watch has passed; and a worker
that finds something in the buffer goes on, unless it is inside a handler call. So where nothing can
go on without time moving, nothing waits for what is already there.
-/

namespace Coordination.Pool

variable {α : Type}

/-- A waiting push that cannot go on has nothing to go on with. -/
theorem resume_none {p : Pool α} {b : Blocked α} (hb : p.blocked? b.entry.push = some b)
    (h : p.resume b.entry.push = none) :
    p.terminated = false ∧ b.cancelled = false ∧ p.closed = false ∧ p.hasRoom = false := by
  simp only [Pool.resume, hb] at h
  split at h
  · cases h
  · rename_i hruns
    split at h
    · cases h
    · rename_i hwanted
      split at h
      · cases h
      · rename_i hopened
        split at h
        · cases h
        · rename_i hfull
          simp only [Bool.not_eq_true] at hruns hwanted hopened hfull
          exact ⟨hruns, hwanted, hopened, hfull⟩

/-- A worker that is not inside a handler call and cannot go on waits for its timer. -/
theorem waits_of_work_none {p : Pool α} {w : Worker α} (here : p.worker? w.id = some w)
    (free : ∀ batch last, w.stance ≠ .handling batch last) (h : p.work w.id = none) :
    p.crewStopped w.crew = false ∧ p.closed = false ∧ p.buffer = [] ∧
      ∃ due, w.stance = .idle due ∧ p.now < due := by
  -- Outside a handler call a worker goes on by a look at its work.
  have hlook : p.look w = none := by
    simpa only [work, here] using h
  unfold look at hlook
  split at hlook
  · cases hlook
  split at hlook
  · split at hlook <;> cases hlook
  · rename_i hgoes
    split at hlook
    · cases hlook
    · rename_i hempty
      split at hlook
      · cases hlook
      · rename_i hopened
        refine ⟨Bool.eq_false_of_not_eq_true hgoes, Bool.eq_false_of_not_eq_true hopened, hempty,
          ?_⟩
        unfold Pool.rest at hlook
        split at hlook
        · cases hlook
        · rename_i due hidle
          split at hlook
          · cases hlook
          · rename_i hearly
            exact ⟨due, hidle, not_le.mp hearly⟩
        · rename_i batch last hstance
          exact absurd hstance (free batch last)

/-- A worker that cannot go on with something in the buffer is inside a handler call. -/
theorem work_none {p : Pool α} {w : Worker α} (here : p.worker? w.id = some w)
    (h : p.work w.id = none) (some_left : p.buffer ≠ []) :
    ∃ batch last, w.stance = .handling batch last := by
  by_contra hfree
  have free (batch : List (Entry α)) (last : Bool) : w.stance ≠ .handling batch last :=
    fun hstance => hfree ⟨batch, last, hstance⟩
  obtain ⟨-, -, empty, -⟩ := waits_of_work_none here free h
  exact some_left empty

section Run

variable {config : Config} {may : Pool α → Label α → Prop} {p : Pool α} {labels : List (Label α)}
  {history : List (Nat × Event α)}

theorem Run.blocked?_of_mem (run : Run config may p labels history) {b : Blocked α}
    (hb : b ∈ p.blocked) : p.blocked? b.entry.push = some b := by
  have hnodup : (p.blocked.map fun b => b.entry.push).Nodup := run.awaiting_nodup
  exact find?_key hnodup hb

theorem Run.buffer_full (run : Run config may p labels history) (full : p.hasRoom = false) :
    p.buffer.length = config.capacity := by
  have hle := run.buffer_le
  rw [hasRoom, run.roster.2, decide_eq_false_iff_not] at full
  omega

/-- Nothing is stuck at rest. Whatever pushes, wishes to give up, tokens, panics, boosts and
closings have led there: where nothing can go on without time moving and a push is still blocked,
the buffer is full, nobody has shut the pool down or terminated it, and nobody has asked the push to
give up; and where an item is left in the buffer, every worker is inside a handler call. -/
theorem nothing_stuck_at_rest (run : Run config AnyStep p labels history) (resting : p.Resting) :
    (∀ b ∈ p.blocked,
      p.buffer.length = max config.queueLength.toNat 1 ∧
      (p.closed = false ∧ .shutdown ∉ labels) ∧
      (p.terminated = false ∧ .terminate ∉ labels) ∧
      b.cancelled = false ∧ b.entry.push ∉ givenUp 0 labels) ∧
    (p.buffer ≠ [] → ∀ w ∈ p.workers, ∃ batch last, w.stance = .handling batch last) := by
  constructor
  · intro b hb
    have hnone : p.resume b.entry.push = none := resting (.resume b.entry.push) rfl
    obtain ⟨hruns, hwanted, hopened, hfull⟩ := resume_none (run.blocked?_of_mem hb) hnone
    have hclose : ¬ (.shutdown ∈ labels ∨ .terminate ∈ labels) := by
      rw [← run.closed_iff, hopened]
      exact Bool.false_ne_true
    have hwish : b.entry.push ∉ givenUp 0 labels := by
      rw [← run.cancelled_iff hb, hwanted]
      exact Bool.false_ne_true
    rw [not_or] at hclose
    exact ⟨run.buffer_full hfull, ⟨hopened, hclose.1⟩, ⟨hruns, hclose.2⟩, hwanted, hwish⟩
  · intro hsome w hw
    have hnone : p.work w.id = none := resting (.work w.id) rfl
    exact work_none (run.roster.1.worker?_of_mem hw) hnone hsome

end Run

/-- Room for one item, though none is asked for, batches of one, and boosts of one worker up to a
limit of two. -/
def tightConfig : Config where
  queueLength := 0
  batchLength := 1
  blockTimeout := .ofNanos 50
  boostTimeout := .ofNanos 200
  boostWorkers := 1
  maxWorkers := some 2

/-- A handler panics, a caller gives up, and a boost helps one push but comes too late for the next,
which goes on waiting without a watch. -/
def restingSteps : List (Label Nat) :=
  [.addWorkers 2 none, .push 10 false, .work 0, .finish 0 true, .push 20 false, .work 1,
    .push 30 false, .push 40 false, .push 50 false, .cancelPush 4, .resume 4, .tick 50, .resume 3,
    .work 2, .resume 3, .push 60 false, .tick 150, .resume 5]

theorem nothing_stuck_at_rest_full : ∃ (p : Pool Nat) (history : List (Nat × Event Nat)),
    Run tightConfig AnyStep p restingSteps history ∧ p.Resting ∧
    p.blocked = [⟨⟨5, 60⟩, none, false⟩] ∧ p.buffered = [3] ∧ p.inHandlers = [1, 2] ∧
    refused history = [4] ∧
    (∀ b ∈ p.blocked, p.buffer.length = max tightConfig.queueLength.toNat 1 ∧
      b.entry.push ∉ givenUp 0 restingSteps) ∧
    ∀ w ∈ p.workers, ∃ batch last, w.stance = .handling batch last := by
  have run : Run tightConfig AnyStep _ ([] ++ restingSteps) _ :=
    (Run.start 0 8).replay (fun _ _ _ => trivial) rfl
  obtain ⟨hblocked, hworkers⟩ := nothing_stuck_at_rest run (by decide)
  have hbusy := hworkers (by decide)
  exact ⟨_, _, run, by decide, by decide, by decide, by decide, by decide,
    fun b hb => ⟨(hblocked b hb).1, (hblocked b hb).2.2.2.2⟩, hbusy⟩

end Coordination.Pool
