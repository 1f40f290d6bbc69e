import Mathlib.Algebra.BigOperators.Group.List.Lemmas
import Mathlib.Algebra.GroupWithZero.Nat
import Mathlib.Data.List.Nodup
import Coordination.Manager.Batches
import Coordination.Proofs.Keyed

/-!
The books of a batch table. All that a table knows follows from what it was told: a batch is on it
from its registration until it is taken off or until its last worker has exited, whichever is
earlier, and counts those that have not. Batches are numbered one after another and a number never
comes back, so what is told of a batch that has gone is told of nobody.
-/

namespace Coordination.Manager

variable {τ : Type}

theorem Batch.total_eq_sum (batches : List (Batch τ)) :
    Batch.total batches = (batches.map Batch.count).sum := by
  rw [List.sum_eq_foldr, List.foldr_map]
  rfl

/-- A sum that has come so far is carried on to the end as long as that fits. -/
theorem foldlM_sum (words : List Nat) {sum : Nat} (fits : sum < wordSize) :
    words.foldlM (fun sum n => if sum + n < wordSize then some (sum + n) else none) sum =
      if sum + words.sum < wordSize then some (sum + words.sum) else none := by
  induction words generalizing sum with
  | nil => simp [fits]
  | cons n words ih =>
      rw [List.foldlM_cons, List.sum_cons, ← add_assoc]
      by_cases hnext : sum + n < wordSize
      · rw [if_pos hnext]
        exact ih hnext
      · rw [if_neg hnext, if_neg (by omega)]
        rfl

/-- Words have a sum exactly if it fits, in whatever order they are added up. -/
theorem wordSum?_eq (words : List Nat) :
    wordSum? words = if words.sum < wordSize then some words.sum else none := by
  have hsum := foldlM_sum words (show 0 < wordSize by decide)
  rwa [zero_add] at hsum

theorem BatchTable.workerNumber_eq (t : BatchTable τ) :
    t.workerNumber =
      if Batch.total t.batches < wordSize then some (Batch.total t.batches) else none := by
  rw [workerNumber, wordSum?_eq, Batch.total_eq_sum]

section Turns

def BatchEvent.batch? : BatchEvent τ → Option Nat
  | .register _ _ _ _ => none
  | .cancel id | .remove id | .exited id => some id

def BatchEvent.registers : BatchEvent τ → Bool
  | .register _ _ _ _ => true
  | .cancel _ | .remove _ | .exited _ => false

/-- The operation takes this batch off the table. -/
def BatchEvent.withdraws (id : Nat) : BatchEvent τ → Bool
  | .cancel other | .remove other => other = id
  | .register _ _ _ _ | .exited _ => false

def BatchEvent.exits (id : Nat) : BatchEvent τ → Bool
  | .exited other => other = id
  | .register _ _ _ _ | .cancel _ | .remove _ => false

/-- The turn is a cancellation of this batch that found it. -/
def BatchTurn.cancels (id : Nat) (x : BatchTurn τ) : Bool :=
  match x.event with
  | .cancel other => other = id && x.answer.cancelled = some true
  | .register _ _ _ _ | .remove _ | .exited _ => false

def BatchTurn.opened? (x : BatchTurn τ) : Option (Batch τ) :=
  match x.event with
  | .register count token lifetime flusher =>
    x.answer.registered.map fun id => ⟨id, count, token, representable lifetime, flusher⟩
  | .cancel _ | .remove _ | .exited _ => none

/-- The numbers given to batches, one after another. -/
def assigned (seen : List (BatchTurn τ)) : List Nat := seen.filterMap fun x => x.answer.registered

def exits (id : Nat) (seen : List (BatchTurn τ)) : Nat := seen.countP fun x => x.event.exits id

/-- A batch was taken off, or its last worker has exited. One that starts without workers goes with
the first that is told to have exited. -/
def Batch.isOver (b : Batch τ) (later : List (BatchTurn τ)) : Bool :=
  later.any (fun x => x.event.withdraws b.id) || max 1 b.count ≤ exits b.id later

/-- What later turns leave of a batch. -/
def Batch.after (later : List (BatchTurn τ)) (b : Batch τ) : Option (Batch τ) :=
  if b.isOver later then none else some { b with count := b.count - exits b.id later }

/-- The batches that are left, by what was told. -/
def recorded : List (BatchTurn τ) → List (Batch τ)
  | [] => []
  | x :: later => (x.opened?.bind (Batch.after later)).toList ++ recorded later

variable {seen more : List (BatchTurn τ)} {b c : Batch τ}

theorem exits_append (id : Nat) (seen more : List (BatchTurn τ)) :
    exits id (seen ++ more) = exits id seen + exits id more := List.countP_append

theorem Batch.after_some (h : b.after seen = some c) :
    c = { b with count := b.count - exits b.id seen } := by
  unfold after at h
  split at h
  · cases h
  · exact (Option.some.inj h).symm

theorem Batch.after_id (h : b.after seen = some c) : c.id = b.id := by
  rw [after_some h]

/-- Nothing is left of a batch that was taken off, or whose last worker has exited. -/
theorem Batch.after_eq_none_iff : b.after seen = none ↔
    (∃ x ∈ seen, x.event.withdraws b.id = true) ∨ max 1 b.count ≤ exits b.id seen := by
  have hover : b.isOver seen = true ↔
      (∃ x ∈ seen, x.event.withdraws b.id = true) ∨ max 1 b.count ≤ exits b.id seen := by
    rw [isOver, Bool.or_eq_true, List.any_eq_true, decide_eq_true_eq]
  rw [← hover, after]
  cases b.isOver seen <;> simp

theorem Batch.after_nil (b : Batch τ) : b.after [] = some b := by
  have hgoes : b.isOver [] = false := by simp [isOver, exits]
  rw [after, hgoes]
  rfl

/-- What is left of a batch in the end is left of what was left on the way. -/
theorem Batch.after_append (b : Batch τ) (seen more : List (BatchTurn τ)) :
    b.after (seen ++ more) = (b.after seen).bind (Batch.after more) := by
  have hsum := exits_append b.id seen more
  unfold after
  -- A batch that is over stays so; one that is not has lost workers, and the rest decides.
  by_cases hover : b.isOver seen = true
  · have hstill : b.isOver (seen ++ more) = true := by
      simp only [isOver, Bool.or_eq_true, decide_eq_true_eq, List.any_append, hsum] at hover ⊢
      exact hover.imp Or.inl fun hexits => Nat.le_add_right_of_le hexits
    rw [if_pos hover, if_pos hstill]
    rfl
  · have hsame : b.isOver (seen ++ more) =
        Batch.isOver { b with count := b.count - exits b.id seen } more := by
      simp only [isOver, Bool.or_eq_true, decide_eq_true_eq, not_or] at hover
      obtain ⟨hkept, hfew⟩ := hover
      simp only [isOver, List.any_append, Bool.eq_false_iff.mpr hkept, Bool.false_or, hsum]
      congr 1
      exact decide_eq_decide.mpr (by omega)
    rw [if_neg hover, Option.bind_some, hsame, hsum, Nat.sub_sub]

theorem recorded_append (seen more : List (BatchTurn τ)) :
    recorded (seen ++ more) = (recorded seen).filterMap (Batch.after more) ++ recorded more := by
  induction seen with
  | nil => rfl
  | cons x seen ih =>
      rw [List.cons_append, recorded, recorded, ih, List.filterMap_append, List.append_assoc]
      congr 1
      cases x.opened? with
      | none => rfl
      | some b =>
          rw [Option.bind_some, Option.bind_some, Batch.after_append]
          cases b.after seen with
          | none => rfl
          | some c => cases hmore : c.after more <;> simp [hmore]

/-- What one turn leaves of a batch. -/
theorem Batch.after_turn (e : BatchEvent τ) (answer : BatchAnswer τ) (b : Batch τ) :
    b.after [⟨e, answer⟩] =
      match e with
      | .register _ _ _ _ => some b
      | .cancel id | .remove id => if b.id = id then none else some b
      | .exited id =>
        if b.id = id then
          if b.count ≤ 1 then none else some { b with count := b.count - 1 }
        else some b := by
  unfold after isOver exits
  cases e with
  | register => simp [BatchEvent.withdraws, BatchEvent.exits]
  | cancel id | remove id =>
      by_cases hid : b.id = id
      · simp [BatchEvent.withdraws, hid]
      · simp [BatchEvent.withdraws, BatchEvent.exits, hid, Ne.symm hid]
  | exited id =>
      by_cases hid : b.id = id
      · have hlast : max 1 b.count ≤ 1 ↔ b.count ≤ 1 := by omega
        simp [BatchEvent.withdraws, BatchEvent.exits, hid, hlast]
      · simp [BatchEvent.withdraws, BatchEvent.exits, hid, Ne.symm hid]

end Turns

section Step

variable {t : BatchTable τ}

theorem filterMap_unless (batches : List (Batch τ)) (id : Nat) :
    (batches.filterMap fun b => if b.id = id then none else some b) =
      batches.filter fun b => b.id ≠ id := by
  rw [← List.filterMap_eq_filter]
  refine List.filterMap_congr fun b _ => ?_
  by_cases hid : b.id = id
  · simp [Option.guard, hid]
  · simp [Option.guard, hid]

/-- A step does to each batch what its turn says, and puts a registered one behind them. -/
theorem step_batches (nodup : (t.batches.map Batch.id).Nodup) (e : BatchEvent τ) :
    (t.step e).1.batches =
      t.batches.filterMap (Batch.after [⟨e, (t.step e).2⟩]) ++
        (BatchTurn.opened? ⟨e, (t.step e).2⟩).toList := by
  have hafter : Batch.after [⟨e, (t.step e).2⟩] = _ := funext (Batch.after_turn e (t.step e).2)
  rw [hafter]
  cases e with
  | register => simp [BatchTable.step, BatchTable.register, BatchTurn.opened?]
  | cancel id | remove id =>
      simp only [BatchTurn.opened?, Option.toList_none, List.append_nil]
      exact (filterMap_unless t.batches id).symm
  | exited id =>
      simp only [BatchTurn.opened?, Option.toList_none, List.append_nil, BatchTable.step,
        BatchTable.exited]
      split
      · rename_i hnone
        rw [List.filterMap_congr fun b hb => if_neg (key_ne_of_find? hnone hb), List.filterMap_some]
      · rename_i b hb
        obtain ⟨hmem, hid⟩ := mem_of_find?_key hb
        have honly {c : Batch τ} (hc : c ∈ t.batches) (hcid : c.id = id) : c = b :=
          List.inj_on_of_nodup_map nodup hc hmem (hcid.trans hid.symm)
        split
        · rename_i hlast
          rw [BatchTable.forget, ← filterMap_unless]
          refine List.filterMap_congr fun c hc => ?_
          split
          · rename_i hcid
            rw [honly hc hcid, if_pos hlast]
          · rfl
        · rename_i hmore
          rw [← List.filterMap_eq_map]
          refine List.filterMap_congr fun c hc => ?_
          simp only [Function.comp]
          split
          · rename_i hcid
            rw [honly hc hcid, if_neg hmore]
          · rfl

theorem step_numbers (t : BatchTable τ) (e : BatchEvent τ) :
    ((t.step e).1.counter = if e.registers then t.counter + 1 else t.counter) ∧
    (t.step e).2.registered = if e.registers then some (t.counter + 1) else none := by
  cases e with
  | register | cancel | remove => exact ⟨rfl, rfl⟩
  | exited id =>
      refine ⟨?_, rfl⟩
      simp only [BatchTable.step, BatchTable.exited]
      split
      · rfl
      · split <;> rfl

def BatchTable.forgotten (t : BatchTable τ) (e : BatchEvent τ) : List (Batch τ) :=
  t.batches.filter fun b => ((t.step e).1.batch? b.id).isNone

/-- The batches of a table have different numbers, and none that is yet to come. -/
structure Numbered (t : BatchTable τ) : Prop where
  nodup : (t.batches.map Batch.id).Nodup
  old : ∀ b ∈ t.batches, b.id ≤ t.counter

theorem after_ids (later : List (BatchTurn τ)) (batches : List (Batch τ)) :
    ((batches.filterMap (Batch.after later)).map Batch.id).Sublist (batches.map Batch.id) := by
  induction batches with
  | nil => exact List.Sublist.slnil
  | cons b batches ih =>
      cases hb : b.after later with
      | none =>
          rw [List.filterMap_cons_none hb]
          exact ih.cons _
      | some c =>
          rw [List.filterMap_cons_some hb, List.map_cons, List.map_cons, Batch.after_id hb]
          exact ih.cons_cons _

theorem opened?_id {x : BatchTurn τ} {b : Batch τ} (h : x.opened? = some b) :
    x.answer.registered = some b.id := by
  unfold BatchTurn.opened? at h
  split at h
  · obtain ⟨id, hid, rfl⟩ := Option.map_eq_some_iff.mp h
    exact hid
  · cases h
  · cases h
  · cases h

theorem opened?_step (t : BatchTable τ) (e : BatchEvent τ) {b : Batch τ}
    (h : BatchTurn.opened? ⟨e, (t.step e).2⟩ = some b) :
    b.id = t.counter + 1 ∧ (t.step e).1.counter = t.counter + 1 := by
  have hregistered := opened?_id h
  obtain ⟨hcounter, hanswer⟩ := step_numbers t e
  dsimp only at hregistered
  rw [hanswer] at hregistered
  split at hregistered
  · rename_i hregisters
    rw [if_pos hregisters] at hcounter
    exact ⟨(Option.some.inj hregistered).symm, hcounter⟩
  · cases hregistered

theorem le_step_counter (t : BatchTable τ) (e : BatchEvent τ) :
    t.counter ≤ (t.step e).1.counter := by
  rw [(step_numbers t e).1]
  split
  · exact Nat.le_succ _
  · exact Nat.le_refl _

theorem Numbered.step (h : Numbered t) (e : BatchEvent τ) : Numbered (t.step e).1 := by
  have hids := after_ids [⟨e, (t.step e).2⟩] t.batches
  have hold : ∀ id ∈ (t.batches.filterMap (Batch.after [⟨e, (t.step e).2⟩])).map Batch.id,
      id ≤ t.counter := by
    intro id hid
    obtain ⟨b, hb, rfl⟩ := List.mem_map.mp (hids.subset hid)
    exact h.old b hb
  constructor
  · rw [step_batches h.nodup, List.map_append, List.nodup_append]
    refine ⟨hids.nodup h.nodup, ?_, ?_⟩
    · cases BatchTurn.opened? ⟨e, (t.step e).2⟩ <;> simp
    · intro id hid other hother
      obtain ⟨b, hb, rfl⟩ := List.mem_map.mp hother
      have hnew := (opened?_step t e (Option.mem_toList.mp hb)).1
      have hle := hold id hid
      omega
  · intro b hb
    rw [step_batches h.nodup, List.mem_append] at hb
    rcases hb with hb | hb
    · exact Nat.le_trans (hold b.id (List.mem_map_of_mem hb)) (le_step_counter t e)
    · obtain ⟨hid, hcounter⟩ := opened?_step t e (Option.mem_toList.mp hb)
      exact Nat.le_of_eq (hid.trans hcounter.symm)

/-- A step does to a batch what its turn says, and gives its number to no other. -/
theorem Numbered.step_batch? (h : Numbered t) (e : BatchEvent τ) {id : Nat} (old : id ≤ t.counter) :
    (t.step e).1.batch? id = (t.batch? id).bind (Batch.after [⟨e, (t.step e).2⟩]) := by
  have hnew : (BatchTurn.opened? ⟨e, (t.step e).2⟩).toList.find? (fun b => b.id = id) = none := by
    rw [List.find?_eq_none]
    intro b hb hid
    have hnext := (opened?_step t e (Option.mem_toList.mp hb)).1
    have hsame : b.id = id := of_decide_eq_true hid
    omega
  rw [BatchTable.batch?, step_batches h.nodup, List.find?_append, hnew, Option.or_none]
  exact find?_filterMap_key (fun _ _ => Batch.after_id) h.nodup id

/-- The batches that a table forgets are those of which a turn leaves nothing. -/
theorem Numbered.forgotten_eq (h : Numbered t) (e : BatchEvent τ) :
    t.forgotten e = t.batches.filter fun b => (b.after [⟨e, (t.step e).2⟩]).isNone := by
  refine List.filter_congr fun b hb => ?_
  have hfound : t.batch? b.id = some b := find?_key h.nodup hb
  rw [h.step_batch? e (h.old b hb), hfound, Option.bind_some]

/-- A table that forgets a batch fires its token, and otherwise it fires none. -/
theorem Numbered.fired (h : Numbered t) (e : BatchEvent τ) :
    (t.step e).2.fired.toList = (t.forgotten e).map Batch.token := by
  have hone (id : Nat) : t.batches.filter (fun b => b.id = id) = (t.batch? id).toList :=
    filter_eq_find? h.nodup id
  rw [h.forgotten_eq]
  simp only [Batch.after_turn]
  cases e with
  | register => simp [BatchTable.step]
  | cancel id | remove id =>
      have hkept (b : Batch τ) : (if b.id = id then none else some b : Option (Batch τ)).isNone =
          decide (b.id = id) := by split <;> simp_all
      simp only [hkept, hone, BatchTable.step, BatchTable.forget, Option.toList_map]
  | exited id =>
      have hkept (b : Batch τ) :
          (if b.id = id then
            if b.count ≤ 1 then none else some { b with count := b.count - 1 }
          else some b : Option (Batch τ)).isNone =
            (decide (b.id = id) && decide (b.count ≤ 1)) := by
        by_cases hid : b.id = id
        · by_cases hlast : b.count ≤ 1 <;> simp [hid, hlast]
        · simp [hid]
      simp only [hkept, ← List.filter_filter, BatchTable.step, BatchTable.exited]
      rw [List.filter_comm, hone]
      cases hb : t.batch? id with
      | none => rfl
      | some b =>
          by_cases hlast : b.count ≤ 1
          · simp [hlast, BatchTable.forget, hb]
          · simp [hlast]

end Step

section Run

variable {t : BatchTable τ} {seen : List (BatchTurn τ)}

/-- What a table was told is what it knows. -/
structure Books (t : BatchTable τ) (seen : List (BatchTurn τ)) : Prop where
  numbered : Numbered t
  batches : t.batches = recorded seen
  numbers : assigned seen = List.range' 1 t.counter
  registered : seen.countP (fun x => x.event.registers) = t.counter
  once : ∀ id, seen.countP (BatchTurn.cancels id) ≤ 1
  cancelled : ∀ id, 0 < seen.countP (BatchTurn.cancels id) → id ≤ t.counter ∧ t.batch? id = none

theorem Numbered.batch?_le (h : Numbered t) {id : Nat} {b : Batch τ} (hb : t.batch? id = some b) :
    id ≤ t.counter := by
  obtain ⟨hmem, rfl⟩ := mem_of_find?_key hb
  exact h.old b hmem

theorem step_cancels (t : BatchTable τ) (e : BatchEvent τ) (id : Nat) :
    BatchTurn.cancels id ⟨e, (t.step e).2⟩ = true ↔
      e = .cancel id ∧ (t.batch? id).isSome = true := by
  cases e with
  | register | remove | exited => simp [BatchTurn.cancels]
  | cancel other =>
      by_cases hid : other = id
      · simp [BatchTurn.cancels, BatchTable.step, BatchTable.forget, hid]
      · simp [BatchTurn.cancels, hid]

theorem countP_turn (p : BatchTurn τ → Bool) (seen : List (BatchTurn τ)) (x : BatchTurn τ) :
    (seen ++ [x]).countP p = seen.countP p + if p x then 1 else 0 := by
  rw [List.countP_append, List.countP_singleton]

theorem Books.next (h : Books t seen) (e : BatchEvent τ) :
    Books (t.step e).1 (seen ++ [⟨e, (t.step e).2⟩]) := by
  obtain ⟨hcounter, hanswer⟩ := step_numbers t e
  refine ⟨h.numbered.step e, ?_, ?_, ?_, ?_, ?_⟩
  · have hopened : recorded [⟨e, (t.step e).2⟩] = (BatchTurn.opened? ⟨e, (t.step e).2⟩).toList := by
      have hkeep : Batch.after [] = (some : Batch τ → Option (Batch τ)) := funext Batch.after_nil
      simp [recorded, hkeep]
    rw [step_batches h.numbered.nodup, recorded_append, ← h.batches, hopened]
  · have hlast : assigned [(⟨e, (t.step e).2⟩ : BatchTurn τ)] = (t.step e).2.registered.toList := by
      cases hregistered : (t.step e).2.registered <;> simp [assigned, hregistered]
    rw [assigned, List.filterMap_append, ← assigned, ← assigned, h.numbers,
      hlast, hanswer, hcounter]
    split
    · rw [Option.toList_some, List.range'_1_concat, Nat.add_comm 1]
    · rw [Option.toList_none, List.append_nil]
  · rw [countP_turn, h.registered, hcounter]
    split <;> rfl
  · intro id
    rw [countP_turn]
    split
    · rename_i hcancels
      have hfound := ((step_cancels t e id).mp hcancels).2
      have hnone : seen.countP (BatchTurn.cancels id) = 0 := by
        refine Nat.eq_zero_of_not_pos fun hpos => ?_
        rw [(h.cancelled id hpos).2] at hfound
        cases hfound
      exact Nat.le_of_eq (congrArg Nat.succ hnone)
    · exact h.once id
  · intro id hpos
    rw [countP_turn] at hpos
    have hgone : id ≤ t.counter ∧ (t.step e).1.batch? id = none := by
      split at hpos
      · rename_i hcancels
        obtain ⟨rfl, hfound⟩ := (step_cancels t e id).mp hcancels
        obtain ⟨b, hb⟩ := Option.isSome_iff_exists.mp hfound
        have hle := h.numbered.batch?_le hb
        obtain ⟨-, rfl⟩ := mem_of_find?_key hb
        refine ⟨hle, ?_⟩
        rw [h.numbered.step_batch? _ hle, hb, Option.bind_some, Batch.after_turn]
        exact if_pos rfl
      · obtain ⟨hle, hnone⟩ := h.cancelled id hpos
        exact ⟨hle, by rw [h.numbered.step_batch? e hle, hnone, Option.bind_none]⟩
    exact ⟨Nat.le_trans hgone.1 (le_step_counter t e), hgone.2⟩

theorem BatchTable.Run.books (run : t.Run seen) : Books t seen := by
  induction run with
  | start =>
      refine ⟨⟨List.nodup_nil, ?_⟩, rfl, rfl, rfl, fun _ => Nat.zero_le 1, ?_⟩
      · simp
      · simp
  | next e run ih => exact ih.next e

theorem mem_recorded_assigned {b : Batch τ} (h : b ∈ recorded seen) : b.id ∈ assigned seen := by
  induction seen with
  | nil => cases h
  | cons x seen ih =>
      rw [recorded, List.mem_append] at h
      rw [assigned, List.mem_filterMap]
      rcases h with h | h
      · obtain ⟨c, hc, hb⟩ := Option.bind_eq_some_iff.mp (Option.mem_toList.mp h)
        exact ⟨x, List.mem_cons_self, by rw [opened?_id hc, Batch.after_id hb]⟩
      · obtain ⟨y, hy, hid⟩ := List.mem_filterMap.mp (ih h)
        exact ⟨y, List.mem_cons_of_mem x hy, hid⟩

/-- What a table has of a batch is what was left of it after its registration. -/
theorem Books.batch?_eq {before later : List (BatchTurn τ)} {x : BatchTurn τ} {b : Batch τ}
    (h : Books t (before ++ x :: later)) (opened : x.opened? = some b) :
    t.batch? b.id = b.after later := by
  have hnodup : (assigned (before ++ x :: later)).Nodup := by
    rw [h.numbers]
    exact List.nodup_range'
  have hassigned : assigned (before ++ x :: later) = assigned before ++ b.id :: assigned later := by
    simp [assigned, opened?_id opened]
  -- Its number went to no other batch, before or after, so only its own registration counts.
  rw [hassigned, List.nodup_middle, List.nodup_cons, List.mem_append, not_or] at hnodup
  obtain ⟨⟨hbefore, hlater⟩, -⟩ := hnodup
  have hearly : ((recorded before).filterMap (Batch.after (x :: later))).find?
      (fun c => c.id = b.id) = none := by
    rw [List.find?_eq_none]
    intro c hc hid
    obtain ⟨d, hd, hdc⟩ := List.mem_filterMap.mp hc
    have hsame : d.id = b.id := (Batch.after_id hdc).symm.trans (of_decide_eq_true hid)
    exact hbefore (hsame ▸ mem_recorded_assigned hd)
  have hlate : (recorded later).find? (fun c => c.id = b.id) = none := by
    rw [List.find?_eq_none]
    intro c hc hid
    have hsame : c.id = b.id := of_decide_eq_true hid
    exact hlater (hsame ▸ mem_recorded_assigned hc)
  rw [BatchTable.batch?, h.batches, recorded_append, recorded, opened, Option.bind_some,
    List.find?_append, List.find?_append, hearly, hlate, Option.none_or, Option.or_none]
  cases hb : b.after later with
  | none => rfl
  | some c => simp [Batch.after_id hb]

theorem forget_unrecorded {id : Nat} (unrecorded : t.batch? id = none) :
    t.forget id = (t, none) := by
  have hkeep : t.batches.filter (fun b => b.id ≠ id) = t.batches :=
    List.filter_eq_self.mpr fun b hb => decide_eq_true (key_ne_of_find? unrecorded hb)
  rw [BatchTable.forget, hkeep, unrecorded, Option.map_none]

/-- An operation on a batch that is not on the table changes nothing. -/
theorem step_unrecorded {e : BatchEvent τ} {id : Nat} (about : e.batch? = some id)
    (unrecorded : t.batch? id = none) :
    (t.step e).1 = t ∧ (t.step e).2.fired = none ∧ (t.step e).2.cancelled ≠ some true := by
  cases e with
  | register => cases about
  | cancel other | remove other =>
      obtain rfl := Option.some.inj about
      simp [BatchTable.step, forget_unrecorded unrecorded]
  | exited other =>
      obtain rfl := Option.some.inj about
      simp [BatchTable.step, BatchTable.exited, unrecorded]

/-- Whatever a table is told, and in which order. Batches are numbered from one on, and no number
comes back. A batch is forgotten just if it has been taken off or as many workers as it started with
have exited (one, if it started with none), and counts those that have not. A step fires the token
of the batch that it makes the table forget, and no other. A batch is found and cancelled once at
most, if it is on the table. Whatever is done about a batch that is not there changes nothing. And
the number of workers is the sum of what the batches count as long as that fits its word; asking for
it breaks off otherwise. -/
theorem batch_table_keeps_books (run : t.Run seen) :
    (assigned seen = List.range' 1 (seen.countP fun x => x.event.registers) ∧
      (assigned seen).Pairwise (· < ·)) ∧
    (∀ before later count token lifetime flusher answer id,
      seen = before ++ ⟨.register count token lifetime flusher, answer⟩ :: later →
      answer.registered = some id →
      (t.batch? id = none ↔
        (∃ x ∈ later, x.event.withdraws id = true) ∨ max 1 count ≤ exits id later) ∧
      ∀ b, t.batch? id = some b →
        b = ⟨id, count - exits id later, token, representable lifetime, flusher⟩) ∧
    (∀ e, (t.step e).2.fired.toList = (t.forgotten e).map Batch.token) ∧
    (∀ id, (t.step (.cancel id)).2.cancelled = some (t.batch? id).isSome ∧
      seen.countP (BatchTurn.cancels id) ≤ 1) ∧
    (∀ e id, e.batch? = some id → t.batch? id = none →
      (t.step e).1 = t ∧ (t.step e).2.fired = none ∧ (t.step e).2.cancelled ≠ some true) ∧
    t.batches = recorded seen ∧
    (∀ total, Batch.total (recorded seen) = total →
      t.workerNumber = if total < wordSize then some total else none) := by
  have books := run.books
  refine ⟨⟨?_, ?_⟩, ?_, books.numbered.fired, ?_, ?_, books.batches, ?_⟩
  · rw [books.registered, books.numbers]
  · rw [books.numbers]
    exact List.pairwise_lt_range'
  · rintro before later count token lifetime flusher answer id rfl hid
    have hopened : BatchTurn.opened? ⟨.register count token lifetime flusher, answer⟩ =
        some ⟨id, count, token, representable lifetime, flusher⟩ := by
      rw [BatchTurn.opened?, hid]
      rfl
    rw [books.batch?_eq hopened]
    exact ⟨Batch.after_eq_none_iff, fun b => Batch.after_some⟩
  · intro id
    exact ⟨by simp [BatchTable.step, BatchTable.forget], books.once id⟩
  · intro e id
    exact step_unrecorded
  · rintro total rfl
    rw [t.workerNumber_eq, books.batches]

/-- Two batches with one token. The first loses a worker and is then cancelled, which is tried
twice; the second ends with its last worker. What comes late for them is told of nobody, and the
next batch gets a new number. -/
def twoBatches : List (BatchEvent Nat) :=
  [.register 3 10 none false, .register 2 10 none false, .exited 1, .cancel 1, .cancel 1, .exited 2,
    .exited 2, .remove 2, .exited 1, .register 1 11 none true]

theorem batch_table_keeps_books_late : ∃ (t : BatchTable Nat) (seen : List (BatchTurn Nat)),
    t.Run seen ∧ seen.map BatchTurn.event = twoBatches ∧ assigned seen = [1, 2, 3] ∧
    seen.filterMap (fun x => x.answer.cancelled) = [true, false] ∧
    seen.filterMap (fun x => x.answer.fired) = [10, 10] ∧
    t.batch? 1 = none ∧ t.batch? 2 = none ∧ t.workerNumber = some 1 := by
  let seen := (BatchTable.tell {} twoBatches).2
  have run : BatchTable.Run _ seen := BatchTable.Run.start.tell twoBatches
  obtain ⟨⟨hnumbers, -⟩, hfate, -, -, -, -, hnumber⟩ := batch_table_keeps_books run
  refine ⟨_, _, run, by decide, hnumbers, by decide, by decide, ?_, ?_, hnumber 1 (by decide)⟩
  · exact (hfate [] _ 3 10 none false _ 1 rfl rfl).1.mpr (.inl (by decide))
  · exact (hfate (seen.take 1) _ 2 10 none false _ 2 rfl rfl).1.mpr (.inr (by decide))

/-- Two batches that are each counted in a word, and whose sum is not. -/
theorem worker_number_breaks_off :
    ∃ (t : BatchTable Nat) (seen : List (BatchTurn Nat)), t.Run seen ∧ seen.map BatchTurn.event =
      [.register (wordSize - 1) 10 none false, .register 1 11 none false] ∧
    Batch.total (recorded seen) = wordSize ∧ t.workerNumber = none :=
  ⟨_, _, BatchTable.Run.start.tell
    [.register (wordSize - 1) 10 none false, .register 1 11 none false],
    by decide, by decide, by decide⟩

end Run

end Coordination.Manager
