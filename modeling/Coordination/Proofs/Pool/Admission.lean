import Coordination.Proofs.Pool.Step

/-!
The two ways of a push into the buffer. A push that watches the block timeout looks at the buffer
first and at its caller's wish afterwards; a push that does not watch it looks the other way round.
Which way a push goes is up to the settings for boosts, and a caller should not see it. Where the
answer is there at once, callers do see it in one case: they had asked to give up beforehand, and
the buffer is closed or has room.
-/

namespace Coordination.Pool

variable {α : Type}

/-- A push that is answered at once: the buffer has room or is closed, or its caller has already
asked to give up. -/
def Decided (p : Pool α) (cancelled : Bool) : Prop :=
  p.hasRoom = true ∨ p.closed = true ∨ cancelled = true

/-- What a push leaves behind: the answer to its caller, the buffer and the count of pending
items. -/
def upshot (o : Outcome α) : List (Event α) × List (Entry α) × Int := (o.2, o.1.buffer, o.1.pending)

def refusal? (p : Pool α) (watches cancelled : Bool) : Option Error :=
  if p.terminated then some .closed
  else if watches then
    if p.closed then some .closed else if p.hasRoom then none else some .cancelled
  else if cancelled then some .cancelled
  else if p.closed then some .closed
  else none

/-- What a push leaves behind that fails in this way, or not at all. -/
def leaves (p : Pool α) (item : α) : Option Error → List (Event α) × List (Entry α) × Int
  | none => ([.accepted p.pushes], p.buffer ++ [⟨p.pushes, item⟩], p.pending + 1)
  | some error => ([.refused p.pushes error], p.buffer, p.pending)

theorem leaves_inj {p : Pool α} {item : α} {a b : Option Error} :
    p.leaves item a = p.leaves item b ↔ a = b := by
  constructor
  · intro h
    have hanswer := congrArg Prod.fst h
    cases a with
    | none =>
        cases b with
        | none => rfl
        | some error => simp [leaves] at hanswer
    | some error =>
        cases b with
        | none => simp [leaves] at hanswer
        | some other => simpa [leaves] using hanswer
  · rintro rfl
    rfl

section Answers

variable {p : Pool α} {cancelled : Bool} (item : α)

theorem upshot_refuse (error : Error) :
    upshot (p.counted.refuse p.pushes error) = p.leaves item (some error) := by
  simp [upshot, leaves, refuse, counted]

theorem upshot_accept : upshot (p.counted.accept ⟨p.pushes, item⟩) = p.leaves item none := by
  simp [upshot, leaves, accept, counted]

theorem upshot_pushWatching (runs : p.terminated = false) (decided : Decided p cancelled) :
    upshot (p.counted.pushWatching ⟨p.pushes, item⟩ cancelled) =
      p.leaves item (p.refusal? true cancelled) := by
  have hclosed : p.counted.closed = p.closed := rfl
  have hroom : p.counted.hasRoom = p.hasRoom := rfl
  simp only [pushWatching, refusal?, hclosed, hroom, runs, Bool.false_eq_true, if_false, if_true]
  split
  · exact upshot_refuse item .closed
  · rename_i hopened
    split
    · exact upshot_accept item
    · rename_i hfull
      have hcancelled : cancelled = true := (decided.resolve_left hfull).resolve_left hopened
      rw [if_pos hcancelled]
      exact upshot_refuse item .cancelled

theorem upshot_pushPlain (runs : p.terminated = false) (decided : Decided p cancelled) :
    upshot (p.counted.pushPlain ⟨p.pushes, item⟩ cancelled) =
      p.leaves item (p.refusal? false cancelled) := by
  have hclosed : p.counted.closed = p.closed := rfl
  have hroom : p.counted.hasRoom = p.hasRoom := rfl
  simp only [pushPlain, refusal?, hclosed, hroom, runs, Bool.false_eq_true, if_false]
  split
  · exact upshot_refuse item .cancelled
  · rename_i hwanted
    split
    · exact upshot_refuse item .closed
    · rename_i hopened
      have hsome : p.hasRoom = true := decided.resolve_right (not_or.mpr ⟨hopened, hwanted⟩)
      rw [if_pos hsome]
      exact upshot_accept item

/-- Of the settings for boosts, the answer depends on nothing but the way they send the push. -/
theorem upshot_push (decided : Decided p cancelled) (c : Boost.Controller) :
    upshot (({ p with boost := c } : Pool α).push item cancelled) =
      p.leaves item (p.refusal? c.watchesPush cancelled) := by
  unfold push
  dsimp only
  split
  · rename_i hover
    simp only [refusal?, hover, if_true]
    rfl
  · rename_i hruns
    have hruns := Bool.eq_false_of_not_eq_true hruns
    split
    · rename_i hwatches
      rw [hwatches]
      exact upshot_pushWatching (p := { p with boost := c }) item hruns decided
    · rename_i hplain
      rw [Bool.eq_false_of_not_eq_true hplain]
      exact upshot_pushPlain (p := { p with boost := c }) item hruns decided

/-- The two ways lead to different answers where the caller's wish and the buffer disagree. -/
theorem refusal?_eq_iff (decided : Decided p cancelled) :
    p.refusal? true cancelled = p.refusal? false cancelled ↔
      p.terminated = true ∨ cancelled = false ∨ p.closed = false ∧ p.hasRoom = false := by
  unfold refusal?
  by_cases hover : p.terminated = true
  · exact iff_of_true (by rw [if_pos hover, if_pos hover]) (Or.inl hover)
  · cases cancelled with
    | false =>
        have hsome : p.hasRoom = true ∨ p.closed = true := by simpa [Decided] using decided
        refine iff_of_true ?_ (Or.inr (Or.inl rfl))
        rcases hsome with hroom | hclosed
        · simp [hroom]
        · simp [hclosed]
    | true =>
        cases hclosed : p.closed <;> cases hroom : p.hasRoom <;> simp [hover]

end Answers

/-- A push that is answered at once has the same answer, and leaves the same buffer and the same
count, whatever the settings for boosts: with one exception. The settings decide where they send
the push another way, its caller had asked to give up, and a running pool is closed or has room.
There a push that watches the block timeout is refused as closed, or accepted, and one that does
not is refused as cancelled. -/
theorem push_paths_agree_iff (p : Pool α) (c d : Boost.Controller) (item : α) (cancelled : Bool)
    (decided : Decided p cancelled) :
    (upshot (({ p with boost := c } : Pool α).push item cancelled) =
        upshot (({ p with boost := d } : Pool α).push item cancelled) ↔
      c.watchesPush = d.watchesPush ∨ p.terminated = true ∨ cancelled = false ∨
        p.closed = false ∧ p.hasRoom = false) ∧
    (p.terminated = false → cancelled = true →
      (({ p with boost := c } : Pool α).push item cancelled).2 =
        if c.watchesPush && p.closed then [.refused p.pushes .closed]
        else if c.watchesPush && p.hasRoom then [.accepted p.pushes]
        else [.refused p.pushes .cancelled]) := by
  constructor
  · rw [upshot_push item decided c, upshot_push item decided d, leaves_inj]
    have hways := refusal?_eq_iff decided
    cases hc : c.watchesPush <;> cases hd : d.watchesPush
    · exact iff_of_true rfl (Or.inl rfl)
    · rw [eq_comm, hways]
      simp
    · rw [hways]
      simp
    · exact iff_of_true rfl (Or.inl rfl)
  · rintro hruns rfl
    have hleft := congrArg Prod.fst (upshot_push item decided c)
    refine hleft.trans ?_
    simp only [refusal?, hruns, Bool.false_eq_true, if_false, if_true]
    cases c.watchesPush <;> cases p.closed <;> cases p.hasRoom <;> rfl

/-- Room for one item, and boosts after 50 ms. -/
def watchingConfig : Config where
  queueLength := 1
  blockTimeout := Duration.ofMillis 50
  boostTimeout := Duration.ofMillis 200
  boostWorkers := 1

/-- A push whose caller had asked to give up finds room. -/
theorem push_paths_agree_iff_given_up :
    let p : Pool Nat := new watchingConfig 0 8
    let plain := Boost.Controller.ofConfig { watchingConfig with boostTimeout := Duration.zero }
    Decided p true ∧ p.boost.watchesPush = true ∧ plain.watchesPush = false ∧
    upshot (p.push 10 true) ≠ upshot (({ p with boost := plain } : Pool Nat).push 10 true) ∧
    (p.push 10 true).2 = [.accepted 0] ∧
    (({ p with boost := plain } : Pool Nat).push 10 true).2 = [.refused 0 .cancelled] := by
  intro p plain
  have decided : Decided p true := Or.inr (Or.inr rfl)
  obtain ⟨hagree, hwatching⟩ := push_paths_agree_iff p p.boost plain 10 true decided
  obtain ⟨-, hplain⟩ := push_paths_agree_iff p plain plain 10 true decided
  refine ⟨decided, by decide, by decide, ?_, hwatching rfl rfl, hplain rfl rfl⟩
  intro hsame
  exact absurd (hagree.mp hsame) (by decide)

/-- The settings for boosts show in the answer to a push whose caller had asked to give up, in a
pool that has just been made. -/
theorem push_paths_disagree :
    ¬ ∀ (config : Config) (p : Pool Nat) (labels : List (Label Nat))
        (history : List (Nat × Event Nat)) (c d : Boost.Controller) (item : Nat) (cancelled : Bool),
      Run config AnyStep p labels history → Decided p cancelled →
      upshot (({ p with boost := c } : Pool Nat).push item cancelled) =
        upshot (({ p with boost := d } : Pool Nat).push item cancelled) := by
  intro h
  have hsame := h watchingConfig (new watchingConfig 0 8) [] []
    (Boost.Controller.ofConfig watchingConfig)
    (Boost.Controller.ofConfig { watchingConfig with boostTimeout := Duration.zero }) 10 true
    (Run.start 0 8) (Or.inr (Or.inr rfl))
  revert hsame
  decide

end Coordination.Pool
