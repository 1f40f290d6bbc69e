import Mathlib.Data.Multiset.Range
import Coordination.Proofs.Pool.Motion

/-!
Items are neither lost nor repeated. A push has one number, which it keeps, and it is at any time
waiting, accepted or refused, in at most one of these ways. An accepted item is in the buffer, in
what one worker holds, or in one handler call; a refused one is nowhere. This holds in every run,
also of pools whose callers abandon pushes, stop crews and let handlers panic as they like.
-/

namespace Coordination.Pool

variable {α : Type}

/-- The pushes that are waiting, accepted or refused. -/
def numbers (t : Tidings α) (f : Flow α) : Multiset Nat :=
  (f.waiting.map Entry.push : List Nat) + t.accepted + t.refused

theorem others_push (push : Nat) (entries : List (Entry α)) :
    (others push entries).map Entry.push = (entries.map Entry.push).filter fun n => n ≠ push := by
  rw [List.filter_map]
  rfl

/-- An entry that waits and the others that wait are all that wait. -/
theorem others_balance {entries : List (Entry α)} (hnodup : (entries.map Entry.push).Nodup)
    {e : Entry α} (he : e ∈ entries) :
    (((others e.push entries).map Entry.push : List Nat) : Multiset Nat) + {e.push} =
      (entries.map Entry.push : List Nat) := by
  have hmem : e.push ∈ entries.map Entry.push := List.mem_map_of_mem he
  have hfilter : (others e.push entries).map Entry.push =
      (entries.map Entry.push).erase e.push := by
    rw [others_push, hnodup.erase_eq_filter]
    refine List.filter_congr fun n _ => ?_
    rw [bne, beq_eq_decide, decide_not]
  rw [hfilter, ← Multiset.coe_erase, add_comm, Multiset.singleton_add]
  exact Multiset.cons_erase (Multiset.mem_coe.mpr hmem)

theorem waiting_nodup {t : Tidings α} {f : Flow α} {n : Nat}
    (h : numbers t f ≤ Multiset.range n) : (f.waiting.map Entry.push).Nodup := by
  have hall := Multiset.nodup_of_le h (Multiset.nodup_range n)
  rw [numbers, add_assoc, Multiset.nodup_add] at hall
  exact hall.1

theorem numbers_append (t u : Tidings α) (f : Flow α) :
    numbers (t ++ u) f = numbers t f + u.accepted + u.refused := by
  simp only [numbers, Tidings.accepted_append, Tidings.refused_append, ← Multiset.coe_add]
  abel

/-- A waiting push that returns is told of instead. -/
theorem numbers_others {t : Tidings α} {f : Flow α} (hnodup : (f.waiting.map Entry.push).Nodup)
    {e : Entry α} (he : e ∈ f.waiting) :
    numbers t { f with waiting := others e.push f.waiting } + {e.push} = numbers t f := by
  simp only [numbers, ← others_balance hnodup he]
  abel

/-- A move gives numbers to new pushes only. -/
theorem Moves.numbers_balance {capacity : Nat} {label : Label α} {f g : Flow α} {u : Tidings α}
    (h : Moves capacity label f u g) (t : Tidings α) (hnodup : (f.waiting.map Entry.push).Nodup) :
    ∃ gone made : Multiset Nat, numbers (t ++ u) g + gone = numbers t f + made ∧
      Multiset.range g.pushes = Multiset.range f.pushes + made := by
  have hrange : Multiset.range (f.pushes + 1) = Multiset.range f.pushes + {f.pushes} := by
    rw [Multiset.range_succ, ← Multiset.singleton_add, add_comm]
  rw [numbers_append]
  cases h with
  | turnAway item cancelled =>
      refine ⟨0, {f.pushes}, ?_, hrange⟩
      change numbers t f + 0 + {f.pushes} + 0 = numbers t f + {f.pushes}
      rw [add_zero, add_zero]
  | accept item cancelled room =>
      refine ⟨0, {f.pushes}, ?_, hrange⟩
      change numbers t f + {f.pushes} + 0 + 0 = numbers t f + {f.pushes}
      rw [add_zero, add_zero]
  | wait item cancelled =>
      refine ⟨0, {f.pushes}, ?_, hrange⟩
      simp only [numbers, List.map_append, List.map_cons, List.map_nil, ← Multiset.coe_add,
        Multiset.coe_singleton, Multiset.coe_nil]
      abel
  | @enter _ e waits room =>
      refine ⟨0, 0, ?_, (add_zero _).symm⟩
      change numbers t { f with waiting := others e.push f.waiting } + {e.push} + 0 + 0 = _
      rw [numbers_others hnodup waits, add_zero]
  | @giveUp _ e waits =>
      refine ⟨0, 0, ?_, (add_zero _).symm⟩
      change numbers t { f with waiting := others e.push f.waiting } + 0 + {e.push} + 0 = _
      rw [add_zero, add_zero, numbers_others hnodup waits, add_zero]
  | drop n =>
      -- What is dropped is whatever had this number, which may be nothing.
      refine ⟨((f.waiting.map Entry.push).filter fun m => ¬ m ≠ n : List Nat), 0, ?_,
        (add_zero _).symm⟩
      have hsplit := Multiset.filter_add_not (fun m => m ≠ n)
        (f.waiting.map Entry.push : Multiset Nat)
      rw [Multiset.filter_coe, Multiset.filter_coe] at hsplit
      simp only [numbers, others_push, ← hsplit, Multiset.coe_nil]
      abel
  | work id front balance => exact ⟨0, 0, by simp [numbers], (add_zero _).symm⟩
  | finish id panicked balance => exact ⟨0, 0, by simp [numbers], (add_zero _).symm⟩
  | stay label quiet => exact ⟨0, 0, by simp, (add_zero _).symm⟩

/-- No number is given twice, and none is told of in two ways. -/
theorem Moves.numbers_le {capacity : Nat} {label : Label α} {f g : Flow α} {t u : Tidings α}
    (h : Moves capacity label f u g) (hle : numbers t f ≤ Multiset.range f.pushes) :
    numbers (t ++ u) g ≤ Multiset.range g.pushes := by
  obtain ⟨gone, made, hnumbers, hrange⟩ := h.numbers_balance t (waiting_nodup hle)
  calc numbers (t ++ u) g ≤ numbers (t ++ u) g + gone := Multiset.le_add_right _ _
    _ = numbers t f + made := hnumbers
    _ ≤ Multiset.range f.pushes + made := by gcongr
    _ = Multiset.range g.pushes := hrange.symm

theorem Run.numbers_le {config : Config} {may : Pool α → Label α → Prop} {p : Pool α}
    {labels : List (Label α)} {history : List (Nat × Event α)}
    (run : Run config may p labels history) :
    numbers (tidings history) p.flow ≤ Multiset.range p.pushes :=
  run.law (fun _ t f => numbers t f ≤ Multiset.range f.pushes) (le_refl 0)
    fun _ _ _ _ _ _ law moves => moves.numbers_le law

/-- A push returns at most once. -/
theorem Run.accepted_refused_nodup {config : Config} {may : Pool α → Label α → Prop} {p : Pool α}
    {labels : List (Label α)} {history : List (Nat × Event α)}
    (run : Run config may p labels history) : (accepted history ++ refused history).Nodup := by
  have hall := Multiset.nodup_of_le run.numbers_le (Multiset.nodup_range _)
  rw [numbers, add_assoc, Multiset.nodup_add] at hall
  rw [← Multiset.coe_nodup, ← Multiset.coe_add]
  exact hall.2.1

/-- Accepted items: in the buffer, held by a worker, or handed over. -/
def Stocked (t : Tidings α) (f : Flow α) : Prop :=
  (f.buffer.map Entry.push : Multiset Nat) + f.batches.map Entry.push +
    (t.handed.map Entry.push : List Nat) = t.accepted

/-- A move takes an accepted item from one place to another. -/
theorem Moves.stocked {capacity : Nat} {label : Label α} {f g : Flow α} {t u : Tidings α}
    (h : Moves capacity label f u g) (hstock : Stocked t f) : Stocked (t ++ u) g := by
  unfold Stocked at hstock ⊢
  cases h with
  | turnAway item cancelled => simpa using hstock
  | accept item cancelled room =>
      simp only [Tidings.accepted_append, Tidings.handed_append, List.append_nil, List.map_append,
        List.map_cons, List.map_nil, ← Multiset.coe_add, ← hstock, Multiset.coe_singleton]
      abel
  | wait item cancelled => simpa using hstock
  | enter waits room =>
      simp only [Tidings.accepted_append, Tidings.handed_append, List.append_nil, List.map_append,
        List.map_cons, List.map_nil, ← Multiset.coe_add, ← hstock, Multiset.coe_singleton]
      abel
  | giveUp waits => simpa using hstock
  | drop n => simpa using hstock
  | @work _ id taken rest handed batches front balance =>
      have hpushes := congrArg (Multiset.map Entry.push) balance
      rw [Multiset.map_add, Multiset.map_add, Multiset.map_coe, Multiset.map_coe] at hpushes
      rw [front, List.map_append, ← Multiset.coe_add] at hstock
      simp only [Tidings.accepted_append, Tidings.handed_append, List.append_nil, List.map_append,
        ← Multiset.coe_add]
      calc (rest.map Entry.push : Multiset Nat) + batches.map Entry.push +
            ((t.handed.map Entry.push : List Nat) + (handed.map Entry.push : List Nat))
          = (rest.map Entry.push : Multiset Nat) + (t.handed.map Entry.push : List Nat) +
            (batches.map Entry.push + (handed.map Entry.push : List Nat)) := by abel
        _ = (rest.map Entry.push : Multiset Nat) + (t.handed.map Entry.push : List Nat) +
            (f.batches.map Entry.push + (taken.map Entry.push : List Nat)) := by rw [hpushes]
        _ = t.accepted := by rw [← hstock]; abel
  | finish id panicked balance => simpa using hstock
  | stay label quiet => simpa using hstock

/-- What has been accepted is what is in the places for accepted items. -/
theorem Run.stocked_perm {config : Config} {may : Pool α → Label α → Prop} {p : Pool α}
    {labels : List (Label α)} {history : List (Nat × Event α)}
    (run : Run config may p labels history) :
    (p.buffered ++ p.held ++ handedOver history).Perm (accepted history) := by
  have hstock : Stocked (tidings history) p.flow :=
    run.law (fun _ t f => Stocked t f) rfl fun _ _ _ _ _ _ law moves => moves.stocked law
  rw [← Multiset.coe_eq_coe, ← Multiset.coe_add, ← Multiset.coe_add]
  exact hstock

/-- Nothing enters a full buffer. -/
theorem Run.buffer_le {config : Config} {may : Pool α → Label α → Prop} {p : Pool α}
    {labels : List (Label α)} {history : List (Nat × Event α)}
    (run : Run config may p labels history) : p.buffer.length ≤ config.capacity := by
  refine run.law (fun _ _ f => f.buffer.length ≤ config.capacity) (Nat.zero_le _) ?_
  intro labels t f label u g law moves
  cases moves with
  | accept item cancelled room => simpa using Nat.succ_le_of_lt room
  | enter waits room => simpa using Nat.succ_le_of_lt room
  | work id front balance =>
      rw [front, List.length_append] at law
      exact le_trans (Nat.le_add_left _ _) law
  | turnAway | wait | giveUp | drop | finish | stay => exact law

/-- The entries in sight: those of waiting pushes, and those of accepted ones. -/
def seen (t : Tidings α) (f : Flow α) : Multiset (Entry α) :=
  (f.waiting : Multiset (Entry α)) + f.buffer + f.batches + t.handed

theorem others_le (push : Nat) (entries : List (Entry α)) :
    (others push entries : Multiset (Entry α)) ≤ entries :=
  Multiset.coe_le.mpr List.filter_sublist.subperm

theorem others_add_le {entries : List (Entry α)} {e : Entry α} (he : e ∈ entries) :
    (others e.push entries : Multiset (Entry α)) + {e} ≤ entries := by
  have hmem : e ∈ entries.filter fun x => ¬ x.push ≠ e.push :=
    List.mem_filter.mpr ⟨he, by simp⟩
  have hsplit := Multiset.filter_add_not (fun x : Entry α => x.push ≠ e.push) entries
  rw [Multiset.filter_coe, Multiset.filter_coe] at hsplit
  rw [← hsplit]
  exact add_le_add (le_refl _) (Multiset.singleton_le.mpr hmem)

/-- What comes in sight is the item of a new push. -/
theorem Moves.seen_le {capacity : Nat} {label : Label α} {f g : Flow α} {u : Tidings α}
    (h : Moves capacity label f u g) (t : Tidings α) :
    ∃ made, seen (t ++ u) g ≤ seen t f + made ∧
      ∀ e ∈ made, e.push = f.pushes ∧ label.item? = some e.item := by
  have hnone : ∀ e ∈ (0 : Multiset (Entry α)), e.push = f.pushes ∧ label.item? = some e.item := by
    simp
  cases h with
  | turnAway item cancelled =>
      refine ⟨0, ?_, hnone⟩
      simp [seen]
  | accept item cancelled room =>
      refine ⟨{⟨f.pushes, item⟩}, le_of_eq ?_, ?_⟩
      · simp only [seen, Tidings.handed_append, List.append_nil, ← Multiset.coe_add,
          Multiset.coe_singleton]
        abel
      · intro e he
        rw [Multiset.mem_singleton.mp he]
        exact ⟨rfl, rfl⟩
  | wait item cancelled =>
      refine ⟨{⟨f.pushes, item⟩}, le_of_eq ?_, ?_⟩
      · simp only [seen, Tidings.handed_append, List.append_nil, ← Multiset.coe_add,
          Multiset.coe_singleton]
        abel
      · intro e he
        rw [Multiset.mem_singleton.mp he]
        exact ⟨rfl, rfl⟩
  | @enter _ e waits room =>
      refine ⟨0, ?_, hnone⟩
      simp only [seen, Tidings.handed_append, List.append_nil, ← Multiset.coe_add,
        Multiset.coe_singleton]
      calc (others e.push f.waiting : Multiset (Entry α)) + (f.buffer + {e}) + f.batches + t.handed
          = (others e.push f.waiting : Multiset (Entry α)) + {e} + f.buffer + f.batches +
            t.handed := by abel
        _ ≤ (f.waiting : Multiset (Entry α)) + f.buffer + f.batches + t.handed + 0 := by
            rw [add_zero]
            gcongr
            exact others_add_le waits
  | giveUp | drop =>
      refine ⟨0, ?_, hnone⟩
      simp only [seen, Tidings.handed_append, List.append_nil, add_zero]
      gcongr
      exact others_le _ _
  | @work _ id taken rest handed batches front balance =>
      refine ⟨0, le_of_eq ?_, hnone⟩
      simp only [seen, Tidings.handed_append, ← Multiset.coe_add, front]
      calc (f.waiting : Multiset (Entry α)) + rest + batches + (t.handed + handed)
          = (f.waiting : Multiset (Entry α)) + rest + t.handed + (batches + handed) := by abel
        _ = (f.waiting : Multiset (Entry α)) + rest + t.handed + (f.batches + taken) := by
            rw [balance]
        _ = (f.waiting : Multiset (Entry α)) + (taken + rest) + f.batches + t.handed + 0 := by
            abel
  | finish | stay =>
      refine ⟨0, ?_, hnone⟩
      simp [seen]

/-- Every entry in sight has the item that was pushed under its number. -/
structure Owned (items : List α) (t : Tidings α) (f : Flow α) : Prop where
  pushes : f.pushes = items.length
  owned : ∀ e ∈ seen t f, items[e.push]? = some e.item

theorem Moves.pushes_eq {capacity : Nat} {label : Label α} {f g : Flow α} {u : Tidings α}
    (h : Moves capacity label f u g) : g.pushes = f.pushes + label.item?.toList.length := by
  cases h with
  | stay label quiet => simp [quiet]
  | drop push own => rcases own with rfl | rfl <;> rfl
  | turnAway | accept | wait | enter | giveUp | work | finish => rfl

theorem Moves.owned {capacity : Nat} {label : Label α} {f g : Flow α} {t u : Tidings α}
    (h : Moves capacity label f u g) {items : List α} (hown : Owned items t f) :
    Owned (items ++ label.item?.toList) (t ++ u) g := by
  obtain ⟨hlength, howned⟩ := hown
  constructor
  · rw [h.pushes_eq, hlength, List.length_append]
  · intro e he
    obtain ⟨made, hle, hmade⟩ := h.seen_le t
    rcases Multiset.mem_add.mp (Multiset.mem_of_le hle he) with hold | hnew
    · have hsome := howned e hold
      have hlt : e.push < items.length := (List.getElem?_eq_some_iff.mp hsome).1
      rw [List.getElem?_append_left hlt, hsome]
    · obtain ⟨hpush, hitem⟩ := hmade e hnew
      rw [hpush, hlength, List.getElem?_append_right le_rfl, hitem]
      simp

theorem Run.owned {config : Config} {may : Pool α → Label α → Prop} {p : Pool α}
    {labels : List (Label α)} {history : List (Nat × Event α)}
    (run : Run config may p labels history) :
    Owned (pushedItems labels) (tidings history) p.flow := by
  refine run.law (fun labels t f => Owned (pushedItems labels) t f)
    ⟨rfl, by simp [seen, Flow.start]⟩ ?_
  intro labels t f label u g law moves
  have hitems : pushedItems (labels ++ [label]) = pushedItems labels ++ label.item?.toList := by
    cases hitem : label.item? <;> simp [pushedItems, hitem]
  rw [hitems]
  exact moves.owned law

/-- No item is lost and none is repeated. Whatever the callers, the workers, the timers and the
handlers do, and in whatever order: an accepted item is once in the buffer, or once in what one
worker holds, or once in one handler call; a refused item is in none of these places; all that is
in them was pushed under its number and accepted; and the buffer is never longer than it may be. -/
theorem run_conserves_items {config : Config} {p : Pool α} {labels : List (Label α)}
    {history : List (Nat × Event α)} (run : Run config AnyStep p labels history) :
    (∀ n ∈ accepted history,
      p.buffered.count n + p.held.count n + (handedOver history).count n = 1) ∧
    (∀ n ∈ refused history,
      n ∉ accepted history ∧ n ∉ p.buffered ∧ n ∉ p.held ∧ n ∉ handedOver history) ∧
    (∀ e ∈ p.buffer ++ p.batches ++ handed history,
      e.push ∈ accepted history ∧ (pushedItems labels)[e.push]? = some e.item) ∧
    p.buffer.length ≤ max config.queueLength.toNat 1 := by
  have hplaces := run.stocked_perm
  have hnodup := run.accepted_refused_nodup
  rw [List.nodup_append] at hnodup
  obtain ⟨haccepted, -, hdisjoint⟩ := hnodup
  have hiff (n : Nat) : n ∈ accepted history ↔
      n ∈ p.buffered ∨ n ∈ p.held ∨ n ∈ handedOver history := by
    rw [← hplaces.mem_iff, List.mem_append, List.mem_append, or_assoc]
  refine ⟨?_, ?_, ?_, run.buffer_le⟩
  · intro n hn
    have hcount := List.count_eq_one_of_mem haccepted hn
    rwa [← hplaces.count_eq, List.count_append, List.count_append] at hcount
  · intro n hn
    have hout : n ∉ accepted history := fun h => hdisjoint n h n hn rfl
    have hnone := hout
    rw [hiff, not_or, not_or] at hnone
    exact ⟨hout, hnone⟩
  · intro e he
    rw [List.mem_append, List.mem_append] at he
    constructor
    · rw [hiff]
      rcases he with (he | he) | he
      · exact Or.inl (List.mem_map_of_mem he)
      · exact Or.inr (Or.inl (List.mem_map_of_mem he))
      · exact Or.inr (Or.inr (List.mem_map_of_mem he))
    · refine run.owned.owned e ?_
      rw [seen, Multiset.mem_add, Multiset.mem_add, Multiset.mem_add]
      rcases he with (he | he) | he
      · exact Or.inl (Or.inl (Or.inr he))
      · exact Or.inl (Or.inr he)
      · exact Or.inr he

/-- A buffer of one place and batches of two. -/
def narrowConfig : Config := { queueLength := 1, batchLength := 2 }

/-- One push waits for room, one gives up, one is abandoned; a handler panics; two workers come. -/
def narrowSteps : List (Label Nat) :=
  [.push 10 false, .push 20 false, .push 30 true, .push 40 false, .dropPush 3, .addWorkers 1 none,
    .work 0, .resume 1, .work 0, .push 50 false, .finish 0 true, .addWorkers 1 none, .work 1,
    .push 60 false]

theorem run_conserves_items_narrow : ∃ (p : Pool Nat) (history : List (Nat × Event Nat)),
    Run narrowConfig AnyStep p narrowSteps history ∧
    accepted history = [0, 1, 4, 5] ∧ refused history = [2] ∧
    p.buffered = [5] ∧ p.held = [4] ∧ handedOver history = [0, 1] ∧
    (∀ n ∈ accepted history,
      p.buffered.count n + p.held.count n + (handedOver history).count n = 1) := by
  have run : Run narrowConfig AnyStep _ ([] ++ narrowSteps) _ :=
    (Run.start 0 8).replay (fun _ _ _ => trivial) rfl
  exact ⟨_, _, run, by decide, by decide, by decide, by decide, by decide,
    (run_conserves_items run).1⟩

end Coordination.Pool
