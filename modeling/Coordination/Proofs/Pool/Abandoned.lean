import Coordination.Proofs.Pool.Pending

/-!
Abandoned pushes. The caller of a waiting push may go away, or the push may break off, and then it
does nothing more: its item never enters the buffer, and it never returns. But it has been counted,
and nobody takes it out of the count again. So the count is one too high for each abandoned push, in
every state that comes later; and after the first of them no flush returns well any more.
-/

namespace Coordination.Pool

variable {α : Type}

def awaiting (p : Pool α) : List Nat := p.blocked.map fun b => b.entry.push

/-- The pushes that have not returned and do not wait either: their callers have gone away, or they
have broken off. -/
def abandoned (p : Pool α) (history : List (Nat × Event α)) : List Nat :=
  (underWay p history).filter fun n => n ∉ p.awaiting

theorem flow_waiting (p : Pool α) : p.flow.waiting.map Entry.push = p.awaiting := by
  simp [flow, awaiting]

theorem underWay_nodup (p : Pool α) (history : List (Nat × Event α)) :
    (underWay p history).Nodup := List.nodup_range.filter _

theorem mem_abandoned {p : Pool α} {history : List (Nat × Event α)} {n : Nat} :
    n ∈ abandoned p history ↔ n ∈ underWay p history ∧ n ∉ p.awaiting := by
  rw [abandoned, List.mem_filter, decide_eq_true_eq]

/-- An abandoned push has its number and nothing else. -/
theorem mem_abandoned_iff {p : Pool α} {history : List (Nat × Event α)} {n : Nat} :
    n ∈ abandoned p history ↔ n < p.pushes ∧ n ∉ numbers (tidings history) p.flow := by
  have hnumbers : n ∈ numbers (tidings history) p.flow ↔
      n ∈ p.awaiting ∨ n ∈ accepted history ∨ n ∈ refused history := by
    rw [numbers, flow_waiting, Multiset.mem_add, Multiset.mem_add, or_assoc]
    rfl
  rw [mem_abandoned, mem_underWay, hnumbers, not_or, not_or]
  constructor
  · rintro ⟨⟨hlt, hreturned⟩, hwaits⟩
    exact ⟨hlt, hwaits, hreturned⟩
  · rintro ⟨hlt, hwaits, hreturned⟩
    exact ⟨⟨hlt, hreturned⟩, hwaits⟩

theorem mem_awaiting_unblock {p : Pool α} {n m : Nat} :
    m ∈ (p.unblock n).awaiting ↔ m ∈ p.awaiting ∧ m ≠ n := by
  simp only [awaiting, unblock, List.mem_map, List.mem_filter, decide_eq_true_eq]
  constructor
  · rintro ⟨b, ⟨hb, hne⟩, rfl⟩
    exact ⟨⟨b, hb, rfl⟩, hne⟩
  · rintro ⟨⟨b, hb, rfl⟩, hne⟩
    exact ⟨b, ⟨hb, hne⟩, rfl⟩

section Run

variable {config : Config} {may : Pool α → Label α → Prop} {p : Pool α} {labels : List (Label α)}
  {history : List (Nat × Event α)}

theorem Run.awaiting_nodup (run : Run config may p labels history) : p.awaiting.Nodup := by
  rw [← flow_waiting]
  exact waiting_nodup run.numbers_le

/-- A push that waits has not returned. -/
theorem Run.awaiting_underWay (run : Run config may p labels history) {n : Nat}
    (hn : n ∈ p.awaiting) : n ∈ underWay p history := by
  have hall := Multiset.nodup_of_le run.numbers_le (Multiset.nodup_range _)
  rw [numbers, flow_waiting, add_assoc, Multiset.nodup_add] at hall
  have hout := Multiset.disjoint_left.mp hall.2.2 (Multiset.mem_coe.mpr hn)
  rw [Multiset.mem_add, not_or] at hout
  have hlt : n < p.pushes := by
    apply Multiset.mem_range.mp
    apply Multiset.mem_of_le run.numbers_le
    rw [numbers, flow_waiting, add_assoc]
    exact Multiset.mem_add.mpr (Or.inl hn)
  exact mem_underWay.mpr ⟨hlt, hout.1, hout.2⟩

/-- A push that has not returned waits, or has been abandoned. -/
theorem Run.underWay_perm (run : Run config may p labels history) :
    (p.awaiting ++ abandoned p history).Perm (underWay p history) := by
  have hunder := underWay_nodup p history
  have hnodup : (p.awaiting ++ abandoned p history).Nodup := by
    apply run.awaiting_nodup.append (hunder.filter _)
    intro n hwaits hgone
    exact (mem_abandoned.mp hgone).2 hwaits
  rw [List.perm_ext_iff_of_nodup hnodup hunder]
  intro n
  rw [List.mem_append]
  constructor
  · rintro (hn | hn)
    · exact run.awaiting_underWay hn
    · exact (mem_abandoned.mp hn).1
  · intro hn
    by_cases hwaits : n ∈ p.awaiting
    · exact Or.inl hwaits
    · exact Or.inr (mem_abandoned.mpr ⟨hn, hwaits⟩)

theorem Run.pending_eq_abandoned (run : Run config may p labels history) :
    p.pending = p.awaiting.length + (abandoned p history).length + p.buffer.length +
      p.held.length + p.inHandlers.length := by
  have hcount := run.pending_eq
  have hunder := run.underWay_perm.length_eq
  rw [List.length_append] at hunder
  omega

/-- A waiting push whose caller goes away joins the abandoned ones. -/
theorem Run.abandoned_unblock (run : Run config may p labels history) {n : Nat}
    (hn : n ∈ p.awaiting) : (abandoned (p.unblock n) history).Perm (n :: abandoned p history) := by
  have hnew : n ∉ abandoned p history := fun h => (mem_abandoned.mp h).2 hn
  have hnodup : (n :: abandoned p history).Nodup :=
    ((underWay_nodup p history).filter _).cons hnew
  have hthen : (abandoned (p.unblock n) history).Nodup := (underWay_nodup _ history).filter _
  have hsame : underWay (p.unblock n) history = underWay p history := rfl
  rw [List.perm_ext_iff_of_nodup hthen hnodup]
  intro m
  rw [List.mem_cons, mem_abandoned, mem_abandoned, hsame, mem_awaiting_unblock]
  constructor
  · rintro ⟨hm, hnot⟩
    by_cases heq : m = n
    · exact Or.inl heq
    · exact Or.inr ⟨hm, fun hwaits => hnot ⟨hwaits, heq⟩⟩
  · rintro (rfl | ⟨hm, hnot⟩)
    · exact ⟨run.awaiting_underWay hn, fun h => h.2 rfl⟩
    · exact ⟨hm, fun h => hnot h.1⟩

/-- A push that has been abandoned stays so. -/
theorem Run.abandoned_step (run : Run config may p labels history) {label : Label α}
    {o : Outcome α} (hstep : p.step label = some o) {n : Nat} (hn : n ∈ abandoned p history) :
    n ∈ abandoned o.1 (history ++ stamp p.now o.2) := by
  have hmoves := (step_moved run.roster.1 hstep).moves p.now
  obtain ⟨gone, made, hnumbers, hrange⟩ :=
    hmoves.numbers_balance (tidings history) (waiting_nodup run.numbers_le)
  have hpushes : Multiset.range o.1.pushes = Multiset.range p.pushes + made := hrange
  obtain ⟨hlt, hnot⟩ := mem_abandoned_iff.mp hn
  have hold : n ∈ Multiset.range p.pushes := Multiset.mem_range.mpr hlt
  -- Numbers are given to new pushes, and this one has been made before.
  have hmade : n ∉ made := by
    have hnodup := Multiset.nodup_range o.1.pushes
    rw [hpushes, Multiset.nodup_add] at hnodup
    exact Multiset.disjoint_left.mp hnodup.2.2 hold
  rw [mem_abandoned_iff, tidings_append]
  constructor
  · apply Multiset.mem_range.mp
    rw [hpushes]
    exact Multiset.mem_add.mpr (Or.inl hold)
  · intro hmem
    have hsum : n ∈ numbers (tidings history) p.flow + made := by
      rw [← hnumbers]
      exact Multiset.mem_add.mpr (Or.inl hmem)
    exact (Multiset.mem_add.mp hsum).elim hnot hmade

/-- An abandoned push keeps a flush from returning well. -/
theorem Run.abandoned_noFlush (run : Run config may p labels history) {n : Nat}
    (hn : n ∈ abandoned p history) {label : Label α} {o : Outcome α}
    (hstep : p.step label = some o) : NoFlush o.2 := by
  rcases step_flushed hstep with hno | ⟨call, -, hpending⟩
  · exact hno
  · have hcount := run.pending_eq_abandoned
    have hsome : 0 < (abandoned p history).length := List.length_pos_of_mem hn
    omega

end Run

theorem Run.abandoned_later {config : Config} {p q : Pool α} {labels more : List (Label α)}
    {history later : List (Nat × Event α)} (run : Run config AnyStep p labels history)
    (h : p.replay more = some (q, later)) {n : Nat} (hn : n ∈ abandoned p history) :
    n ∈ abandoned q (history ++ later) ∧ ∀ t call, (t, .flushed call) ∉ later := by
  induction more generalizing p labels history later with
  | nil =>
      obtain ⟨rfl, rfl⟩ : p = q ∧ [] = later := by simpa [Pool.replay] using h
      simpa using hn
  | cons label more ih =>
      obtain ⟨r, events, rest, hstep, hrest, rfl⟩ := replay_cons h
      have hnow : n ∈ abandoned r (history ++ stamp p.now events) := run.abandoned_step hstep hn
      obtain ⟨hthen, hnone⟩ := ih (Run.next run trivial hstep) hrest hnow
      rw [List.append_assoc] at hthen
      refine ⟨hthen, ?_⟩
      intro t call hmem
      rcases List.mem_append.mp hmem with hfirst | hrest
      · obtain ⟨-, he⟩ := mem_stamp.mp hfirst
        exact run.abandoned_noFlush hn hstep call he
      · exact hnone t call hrest

/-- A flush looks at nothing but the count. -/
theorem flush_flushed_iff (p : Pool α) (cancelled : Bool) :
    (p.flush cancelled).2 = [.flushed p.flushCalls] ↔ p.pending ≤ 0 := by
  unfold flush
  dsimp only
  split
  · rename_i hnone
    exact iff_of_true rfl hnone
  · rename_i hsome
    refine iff_of_false ?_ hsome
    split <;> simp

/-- An abandoned push is counted for good. The count is what it should be, the pushes that wait,
the buffered items, those that workers hold and those in handler calls, and on top of that one for
each abandoned push. A push is abandoned by the step in which its caller goes away while it waits,
and this step leaves the count alone; all steps of the push together have raised it by one. From
then on its item is never accepted, and no flush returns well. So where nobody waits and all
accepted items have been handled, a flush returns well if and only if no push has been abandoned. -/
theorem abandoned_push_stays_pending {config : Config} {p : Pool α} {labels : List (Label α)}
    {history : List (Nat × Event α)} (run : Run config AnyStep p labels history) :
    (p.pending = p.awaiting.length + (abandoned p history).length + p.buffer.length +
      p.held.length + p.inHandlers.length) ∧
    (∀ n ∈ p.awaiting, ∃ q, p.step (.dropPush n) = some (q, []) ∧ q.pending = p.pending ∧
      q.buffer = p.buffer ∧ (abandoned q history).Perm (n :: abandoned p history)) ∧
    (∃ now itemBytes, (new config now itemBytes).replay labels = some (p, history) ∧
      ∀ n ∈ abandoned p history, (new config now itemBytes).ownChange n labels = 1) ∧
    (∀ n ∈ abandoned p history, ∀ more q later, p.replay more = some (q, later) →
      n ∉ accepted (history ++ later) ∧ ∀ t call, (t, .flushed call) ∉ later) ∧
    (p.awaiting = [] → p.buffer = [] → p.held = [] → p.inHandlers = [] → ∀ cancelled,
      ((p.flush cancelled).2 = [.flushed p.flushCalls] ↔ abandoned p history = [])) := by
  have hcount := run.pending_eq_abandoned
  refine ⟨hcount, ?_, ?_, ?_, ?_⟩
  · intro n hn
    exact ⟨p.unblock n, rfl, rfl, rfl, run.abandoned_unblock hn⟩
  · obtain ⟨now, itemBytes, hreplay, hchange⟩ := run.own_change
    refine ⟨now, itemBytes, hreplay, ?_⟩
    intro n hn
    obtain ⟨hlt, -, hrefused⟩ := mem_underWay.mp (mem_abandoned.mp hn).1
    rw [hchange, share, if_pos ⟨hlt, hrefused⟩]
  · intro n hn more q later hlater
    obtain ⟨hthen, hnone⟩ := run.abandoned_later hlater hn
    exact ⟨(mem_underWay.mp (mem_abandoned.mp hthen).1).2.1, hnone⟩
  · intro hwaiting hbuffer hheld hcalls cancelled
    rw [flush_flushed_iff, hcount, hwaiting, hbuffer, hheld, hcalls]
    simp

/-- One item is accepted and a push waits for room; its caller goes away, and the item is
handled. -/
def leakingSteps : List (Label Nat) :=
  [.push 10 false, .push 20 false, .dropPush 1, .addWorkers 1 none, .work 0, .shutdown, .work 0,
    .finish 0 false]

theorem abandoned_push_stays_pending_leak : ∃ (p : Pool Nat) (history : List (Nat × Event Nat)),
    Run narrowConfig AnyStep p leakingSteps history ∧
    accepted history = [0] ∧ ended history = [⟨0, 10⟩] ∧ abandoned p history = [1] ∧
    p.pending = 1 ∧
    p.pending = p.awaiting.length + (abandoned p history).length + p.buffer.length +
      p.held.length + p.inHandlers.length ∧
    ¬ (p.flush false).2 = [.flushed p.flushCalls] := by
  have run : Run narrowConfig AnyStep _ ([] ++ leakingSteps) _ :=
    (Run.start 0 8).replay (fun _ _ _ => trivial) rfl
  obtain ⟨hcount, -, -, -, hflush⟩ := abandoned_push_stays_pending run
  refine ⟨_, _, run, by decide, by decide, by decide, by decide, hcount, ?_⟩
  rw [hflush rfl rfl rfl rfl false]
  decide

/-- The count of pending items remembers a push whose caller went away as soon as it had to wait. -/
theorem dropped_push_stays_pending :
    ¬ ∀ (config : Config) (p q r : Pool Nat) (labels : List (Label Nat))
        (history : List (Nat × Event Nat)) (item : Nat), Run config AnyStep p labels history →
      p.step (.push item false) = some (q, [.blocked p.pushes]) →
      q.step (.dropPush p.pushes) = some (r, []) → r.pending = p.pending := by
  intro h
  have run : Run narrowConfig AnyStep _ ([] ++ [.push 10 false]) _ :=
    (Run.start 0 8).replay (fun _ _ _ => trivial) rfl
  have hsame := h narrowConfig _ _ _ _ _ 20 run rfl rfl
  revert hsame
  decide

end Coordination.Pool
