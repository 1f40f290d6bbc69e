import Coordination.Proofs.Pool.Conservation

/-!
The count of pending items is exact as long as callers wait for their pushes. It is raised once
for each push that passes the check for a closed pool, and lowered once: when the push fails, or
when the handler call that its item came to ends. At any time it is therefore the number of pushes
under way, of buffered items, of items that workers hold, and of items inside handler calls. A
flush that finds it at zero knows that all that was accepted has been dealt with.
-/

namespace Coordination.Pool

variable {α : Type}

/-- What has been handed over is inside a handler call or was in one that has ended. -/
theorem Run.handed_perm {config : Config} {may : Pool α → Label α → Prop} {p : Pool α}
    {labels : List (Label α)} {history : List (Nat × Event α)}
    (run : Run config may p labels history) :
    (p.calls ++ ended history).Perm (handed history) := by
  have hlaw : p.flow.calls + ((tidings history).ended : Multiset (Entry α)) =
      (tidings history).handed := by
    refine run.law (fun _ t f => f.calls + (t.ended : Multiset (Entry α)) =
      (t.handed : Multiset (Entry α))) rfl ?_
    intro labels t f label u g law moves
    cases moves with
    | @work _ id taken rest handed batches front balance =>
        simp only [Tidings.handed_append, Tidings.ended_append, List.append_nil,
          ← Multiset.coe_add, ← law]
        abel
    | @finish _ id panicked ended calls balance =>
        simp only [Tidings.handed_append, Tidings.ended_append, List.append_nil,
          ← Multiset.coe_add, ← law, balance]
        abel
    | turnAway | accept | wait | enter | giveUp | drop | stay => simpa using law
  rw [← Multiset.coe_eq_coe, ← Multiset.coe_add]
  exact hlaw

/-- What is counted as pending and not yet handled, refused pushes and handled items are all that
was pushed; a push that is abandoned is counted for good. -/
theorem Run.pushes_eq {config : Config} {may : Pool α → Label α → Prop} {p : Pool α}
    {labels : List (Label α)} {history : List (Nat × Event α)}
    (run : Run config may p labels history) :
    p.pending + (refused history).length + (ended history).length = p.pushes := by
  refine run.law (fun _ t f => f.pending + t.refused.length + t.ended.length = f.pushes) rfl ?_
  intro labels t f label u g law moves
  cases moves <;> simp only [Tidings.refused_append, Tidings.ended_append, List.length_append,
    List.length_nil, List.length_singleton] <;> omega

theorem mem_underWay {p : Pool α} {history : List (Nat × Event α)} {n : Nat} :
    n ∈ underWay p history ↔ n < p.pushes ∧ n ∉ accepted history ∧ n ∉ refused history := by
  simp [underWay]

/-- Every push has been accepted or refused, or is under way. -/
theorem Run.pushes_perm {config : Config} {may : Pool α → Label α → Prop} {p : Pool α}
    {labels : List (Label α)} {history : List (Nat × Event α)}
    (run : Run config may p labels history) :
    (accepted history ++ refused history ++ underWay p history).Perm (List.range p.pushes) := by
  have hunder : (underWay p history).Nodup := List.nodup_range.filter _
  have hnodup : (accepted history ++ refused history ++ underWay p history).Nodup := by
    apply run.accepted_refused_nodup.append hunder
    intro n hreturned hn
    obtain ⟨-, hnacc, hnref⟩ := mem_underWay.mp hn
    exact (List.mem_append.mp hreturned).elim hnacc hnref
  rw [List.perm_ext_iff_of_nodup hnodup List.nodup_range]
  intro n
  rw [List.mem_append, List.mem_range]
  constructor
  · rintro (hn | hn)
    · apply Multiset.mem_range.mp
      apply Multiset.mem_of_le run.numbers_le
      rw [numbers, add_assoc]
      exact Multiset.mem_add.mpr (Or.inr (Multiset.mem_add.mpr (List.mem_append.mp hn)))
    · exact (mem_underWay.mp hn).1
  · intro hlt
    by_cases hn : n ∈ accepted history ++ refused history
    · exact Or.inl hn
    · rw [List.mem_append, not_or] at hn
      exact Or.inr (mem_underWay.mpr ⟨hlt, hn⟩)

/-- The count, in a run in which any push may be abandoned. Those that were have neither been
accepted nor refused, so they are among the pushes under way for good. -/
theorem Run.pending_eq {config : Config} {may : Pool α → Label α → Prop} {p : Pool α}
    {labels : List (Label α)} {history : List (Nat × Event α)}
    (run : Run config may p labels history) :
    p.pending = (underWay p history).length + p.buffer.length + p.held.length +
      p.inHandlers.length := by
  have hpushes := run.pushes_eq
  have hfates := run.pushes_perm.length_eq
  have hplaces := run.stocked_perm.length_eq
  have hcalls := run.handed_perm.length_eq
  have hbuffered : p.buffered.length = p.buffer.length := List.length_map _
  have hinside : p.inHandlers.length = p.calls.length := List.length_map _
  have hhanded : (handedOver history).length = (handed history).length := List.length_map _
  simp only [List.length_append, List.length_range] at hfates hplaces hcalls
  omega

section OwnChange

/-- The push that a step belongs to, when so many have been made before. -/
def Label.ofPush? (made : Nat) : Label α → Option Nat
  | .push _ _ => some made
  | .cancelPush n | .resume n | .dropPush n => some n
  | _ => none

/-- By how much the steps of one push change the count, all of them together. -/
def ownChange (p : Pool α) (n : Nat) : List (Label α) → Int
  | [] => 0
  | label :: labels =>
    match p.step label with
    | none => 0
    | some (q, _) =>
      (if label.ofPush? p.pushes = some n then q.pending - p.pending else 0) + q.ownChange n labels

theorem replay_snoc {p q r : Pool α} {labels : List (Label α)} {history : List (Nat × Event α)}
    {label : Label α} {events : List (Event α)} (h : p.replay labels = some (q, history))
    (hstep : q.step label = some (r, events)) :
    p.replay (labels ++ [label]) = some (r, history ++ stamp q.now events) := by
  induction labels generalizing p history with
  | nil =>
      obtain ⟨rfl, rfl⟩ : p = q ∧ [] = history := by simpa [replay] using h
      simp [replay, hstep]
  | cons first rest ih =>
      obtain ⟨s, head, tail, hfirst, hrest, rfl⟩ := replay_cons h
      simp [replay, hfirst, ih hrest]

theorem ownChange_snoc {p q r : Pool α} {labels : List (Label α)}
    {history : List (Nat × Event α)} {label : Label α} {events : List (Event α)}
    (h : p.replay labels = some (q, history)) (hstep : q.step label = some (r, events)) (n : Nat) :
    p.ownChange n (labels ++ [label]) = p.ownChange n labels +
      if label.ofPush? q.pushes = some n then r.pending - q.pending else 0 := by
  induction labels generalizing p history with
  | nil =>
      obtain ⟨rfl, -⟩ : p = q ∧ [] = history := by simpa [replay] using h
      simp [ownChange, hstep]
  | cons first rest ih =>
      obtain ⟨s, head, tail, hfirst, hrest, -⟩ := replay_cons h
      simp only [ownChange, hfirst, List.cons_append, ih hrest, add_assoc]

/-- What a push adds to the count: one from the time at which it is made, unless it is refused. -/
def share (t : Tidings α) (f : Flow α) (n : Nat) : Int :=
  if n < f.pushes ∧ n ∉ t.refused then 1 else 0

/-- A step of a push changes the count by the change of its share, and no other share changes. -/
theorem Moves.share_change {capacity : Nat} {label : Label α} {f g : Flow α} {t u : Tidings α}
    (h : Moves capacity label f u g) (hle : numbers t f ≤ Multiset.range f.pushes) (n : Nat) :
    share t f n + (if label.ofPush? f.pushes = some n then g.pending - f.pending else 0) =
      share (t ++ u) g n := by
  have hrefused (m : Nat) (hm : m ∈ t.refused) : m < f.pushes :=
    Multiset.mem_range.mp (Multiset.mem_of_le hle (Multiset.mem_add.mpr (Or.inr hm)))
  have hnew : f.pushes ∉ t.refused := fun hm => absurd (hrefused _ hm) (lt_irrefl _)
  have hwaits {e : Entry α} (he : e ∈ f.waiting) : e.push < f.pushes ∧ e.push ∉ t.refused := by
    have hmem : e.push ∈ f.waiting.map Entry.push := List.mem_map_of_mem he
    have hnodup := Multiset.nodup_of_le hle (Multiset.nodup_range _)
    rw [numbers, Multiset.nodup_add] at hnodup
    have hin : e.push ∈ (f.waiting.map Entry.push : Multiset Nat) + t.accepted :=
      Multiset.mem_add.mpr (Or.inl hmem)
    refine ⟨Multiset.mem_range.mp (Multiset.mem_of_le hle ?_), ?_⟩
    · exact Multiset.mem_add.mpr (Or.inl hin)
    · exact Multiset.disjoint_left.mp hnodup.2.2 hin
  unfold share
  cases h with
  | turnAway item cancelled =>
      by_cases hn : n = f.pushes
      · simp [hn]
      · have hlt : n < f.pushes + 1 ↔ n < f.pushes := by omega
        simp [hn, hlt]
  | accept item cancelled room | wait item cancelled =>
      by_cases hn : n = f.pushes
      · simp [hn, hnew, Label.ofPush?]
      · have hlt : n < f.pushes + 1 ↔ n < f.pushes := by omega
        simp [hlt, Label.ofPush?, Ne.symm hn]
  | enter waits room => simp
  | @giveUp _ e waits =>
      obtain ⟨hlt, hnot⟩ := hwaits waits
      by_cases hn : e.push = n
      · simp [← hn, hlt, hnot, Label.ofPush?]
      · simp [hn, Label.ofPush?, Ne.symm hn]
  | drop m => simp
  | work id front balance => simp [Label.ofPush?]
  | finish id panicked balance => simp [Label.ofPush?]
  | stay label quiet => simp

theorem Run.own_change {config : Config} {may : Pool α → Label α → Prop} {p : Pool α}
    {labels : List (Label α)} {history : List (Nat × Event α)}
    (run : Run config may p labels history) :
    ∃ now itemBytes, (new config now itemBytes).replay labels = some (p, history) ∧
      ∀ n, (new config now itemBytes).ownChange n labels = share (tidings history) p.flow n := by
  induction run with
  | start now itemBytes =>
      exact ⟨now, itemBytes, rfl, fun n => by simp [ownChange, share, flow_new, Flow.start]⟩
  | @next p q labels history label events run may hstep ih =>
      obtain ⟨now, itemBytes, hreplay, hchange⟩ := ih
      refine ⟨now, itemBytes, replay_snoc hreplay hstep, fun n => ?_⟩
      have hmoves := (step_moved run.roster.1 hstep).moves p.now
      rw [ownChange_snoc hreplay hstep n, hchange n, tidings_append]
      exact hmoves.share_change run.numbers_le n

end OwnChange

section Flushed

def NoFlush (events : List (Event α)) : Prop := ∀ call, Event.flushed call ∉ events

/-- A flush returns well in a step of its own, taken while nothing is pending. -/
theorem step_flushed {p : Pool α} {label : Label α} {o : Outcome α} (ho : p.step label = some o) :
    NoFlush o.2 ∨ ∃ call, o.2 = [.flushed call] ∧ p.pending ≤ 0 := by
  cases step_acts ho with
  | flushed cancelled none_pending => exact Or.inr ⟨_, rfl, none_pending⟩
  | pollFlushed waits due none_pending => exact Or.inr ⟨_, rfl, none_pending⟩
  | push item cancelled becomes =>
      left
      cases becomes <;> simp [NoFlush, refuse, accept, block]
  | resume waits becomes =>
      left
      cases becomes <;> simp [NoFlush, refuse, accept, after, hire]
  | work here free works => exact Or.inl fun call hcall => works_told works _ hcall
  | addWorkers | finishLast | finish => exact Or.inl (by simp [NoFlush, after, hire, exit])
  | startBroke | expireBoost | flushFailed | flushWaits | giveUpFlush =>
      exact Or.inl (by simp [NoFlush])
  | cancelPush | dropPush | addNobody | stopCrew | dropStay | endStay | pollAgain | cancelFlush
  | dropFlush | setMaxWorkers | manage | shutdown | terminate | tick =>
      exact Or.inl (by simp [NoFlush])

/-- Everything that happened, happened in a step that could be taken at that time. -/
theorem Run.origin {config : Config} {may : Pool α → Label α → Prop} {p : Pool α}
    {labels : List (Label α)} {history before after : List (Nat × Event α)} {x : Nat × Event α}
    (run : Run config may p labels history) (h : history = before ++ x :: after) :
    ∃ q done past label o front back, Run config may q done past ∧ may q label ∧
      q.step label = some o ∧ stamp q.now o.2 = front ++ x :: back ∧ before = past ++ front := by
  induction run generalizing after with
  | start now => simp at h
  | @next p q labels history label events run may hstep ih =>
      -- It happened in the last step, or in the run before that.
      rcases List.append_eq_append_iff.mp h with ⟨front, hbefore, hstamp⟩ | ⟨rest, hpast, hrest⟩
      · exact ⟨p, labels, history, label, _, front, after, run, may, hstep, hstamp, hbefore⟩
      · cases rest with
        | nil =>
            rw [List.append_nil] at hpast
            refine ⟨p, labels, history, label, _, [], after, run, may, hstep, hrest.symm, ?_⟩
            rw [List.append_nil, hpast]
        | cons y rest =>
            obtain ⟨rfl, -⟩ := List.cons.inj hrest
            exact ih hpast

end Flushed

end Coordination.Pool
