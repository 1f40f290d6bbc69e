import Coordination.Manager.History
import Coordination.Proofs.Manager.Batches

/-!
What a manager lists follows from what it was told. A record is listed from its addition until it is
removed, under a number that no other record ever gets, and what the manager shows is read off this
list, in whatever order it keeps the records.
-/

namespace Coordination.Manager

namespace Directory

section Turns

def Event.removes (id : Nat) : Event → Bool
  | .remove other => other = id
  | .add _ => false

def Turn.added? (x : Turn) : Option Record :=
  match x.event with
  | .add _ => x.answer
  | .remove _ => none

/-- The turn takes the record of this number off the list and returns it. -/
def Turn.returns (id : Nat) (x : Turn) : Bool := x.event.removes id && x.answer.isSome

def added (seen : List Turn) : List Record := seen.filterMap Turn.added?

def stays (later : List Turn) (r : Record) : Bool := later.all fun x => !x.event.removes r.id

/-- The records that were added and have not been removed since, in the order of their additions. -/
def listed : List Turn → List Record
  | [] => []
  | x :: later => x.added?.toList.filter (stays later) ++ listed later

variable {seen more : List Turn} {r : Record}

theorem added_append (seen more : List Turn) : added (seen ++ more) = added seen ++ added more :=
  List.filterMap_append

theorem added_turn (x : Turn) : added [x] = x.added?.toList := by
  cases hx : x.added? <;> simp [added, hx]

theorem stays_iff : stays seen r = true ↔ ∀ x ∈ seen, x.event ≠ .remove r.id := by
  rw [stays, List.all_eq_true]
  refine forall₂_congr fun x _ => ?_
  cases x.event with
  | add => simp [Event.removes]
  | remove id => simp [Event.removes]

theorem stays_turn (x : Turn) : stays [x] = fun r => !x.event.removes r.id := by
  funext r
  rw [stays, List.all_cons, List.all_nil, Bool.and_true]

theorem listed_append (seen more : List Turn) :
    listed (seen ++ more) = (listed seen).filter (stays more) ++ listed more := by
  induction seen with
  | nil => rfl
  | cons x seen ih =>
      have hboth : stays (seen ++ more) = fun r => stays more r && stays seen r := by
        funext r
        rw [stays, List.all_append, Bool.and_comm, stays, stays]
      rw [List.cons_append, listed, listed, ih, List.filter_append, List.filter_filter, hboth,
        List.append_assoc]

theorem listed_turn (x : Turn) : listed [x] = x.added?.toList := by
  rw [listed, listed, List.append_nil, List.filter_eq_self]
  exact fun r _ => rfl

/-- What is listed was added, in the same order. -/
theorem listed_sublist (seen : List Turn) : (listed seen).Sublist (added seen) := by
  induction seen with
  | nil => exact List.Sublist.slnil
  | cons x seen ih =>
      have hadded : added (x :: seen) = x.added?.toList ++ added seen := by
        rw [← added_turn]
        exact added_append [x] seen
      rw [listed, hadded]
      exact List.filter_sublist.append ih

/-- A record is listed just if it was added and has not been removed since. -/
theorem mem_listed : r ∈ listed seen ↔ ∃ before later a,
    seen = before ++ ⟨.add a, some r⟩ :: later ∧ ∀ x ∈ later, x.event ≠ .remove r.id := by
  induction seen with
  | nil => simp [listed]
  | cons x seen ih =>
      rw [listed, List.mem_append, List.mem_filter, Option.mem_toList, stays_iff, ih]
      constructor
      · rintro (⟨hadded, hstays⟩ | ⟨before, later, a, rfl, hstays⟩)
        · obtain ⟨event, answer⟩ := x
          cases event with
          | remove => cases hadded
          | add a =>
              obtain rfl : answer = some r := hadded
              exact ⟨[], seen, a, rfl, hstays⟩
        · exact ⟨x :: before, later, a, rfl, hstays⟩
      · rintro ⟨before, later, a, hseen, hstays⟩
        cases before with
        | nil =>
            obtain ⟨rfl, rfl⟩ := List.cons.inj hseen
            exact .inl ⟨rfl, hstays⟩
        | cons y before =>
            obtain ⟨-, rfl⟩ := List.cons.inj hseen
            exact .inr ⟨before, later, a, rfl, hstays⟩

end Turns

section Step

variable {d : Directory}

theorem step_records (d : Directory) (e : Event) :
    (d.step e).1.records =
      d.records.filter (stays [⟨e, (d.step e).2⟩]) ++ (Turn.added? ⟨e, (d.step e).2⟩).toList := by
  rw [stays_turn]
  cases e with
  | add a => simp [step, add, Event.removes, Turn.added?]
  | remove id => simp [step, remove, Event.removes, Turn.added?, eq_comm]

/-- A new record has the next number, and the counter stays where it is otherwise. -/
theorem step_numbers (d : Directory) (e : Event) :
    List.range' 1 (d.step e).1.counter =
      List.range' 1 d.counter ++ (Turn.added? ⟨e, (d.step e).2⟩).toList.map Record.id := by
  cases e with
  | add a =>
      have hnext : (d.step (.add a)).1.counter = d.counter + 1 := rfl
      rw [hnext, List.range'_1_concat, Nat.add_comm 1]
      rfl
  | remove id => simp [step, remove, Turn.added?]

/-- The number of times that the record of a number was returned or is listed: once for each record
that was added under it. -/
theorem step_balance (d : Directory) (nodup : (d.records.map Record.id).Nodup) (e : Event)
    (id : Nat) :
    (Turn.returns id ⟨e, (d.step e).2⟩).toNat + (d.step e).1.records.countP (fun r => r.id = id) =
      d.records.countP (fun r => r.id = id) +
        (Turn.added? ⟨e, (d.step e).2⟩).toList.countP (fun r => r.id = id) := by
  cases e with
  | add a => simp [Turn.returns, Event.removes, Turn.added?, step, add, List.countP_append]
  | remove other =>
      have hfound : d.records.countP (fun r => r.id = other) = (d.get? other).toList.length := by
        rw [List.countP_eq_length_filter, filter_eq_find? nodup other]
        rfl
      have hleft : (d.step (.remove other)).1.records = d.records.filter fun r => r.id ≠ other :=
        rfl
      rw [hleft, List.countP_filter]
      by_cases hid : other = id
      · subst hid
        have hgone : d.records.countP
            (fun r => decide (r.id = other) && decide (r.id ≠ other)) = 0 :=
          List.countP_eq_zero.mpr fun r _ => by simp
        rw [hgone, hfound]
        cases hr : d.get? other <;>
          simp [Turn.returns, Event.removes, Turn.added?, step, remove, hr]
      · have hsame : d.records.countP (fun r => decide (r.id = id) && decide (r.id ≠ other)) =
            d.records.countP (fun r => r.id = id) :=
          List.countP_congr fun r _ => by
            simp only [Bool.and_eq_true, decide_eq_true_eq]
            exact ⟨fun h => h.1, fun h => ⟨h, fun ho => hid (ho.symm.trans h)⟩⟩
        rw [hsame]
        simp [Turn.returns, Event.removes, Turn.added?, hid]

end Step

section Run

variable {d : Directory} {seen : List Turn}

/-- What a manager was told is what it knows. -/
structure Follows (d : Directory) (seen : List Turn) : Prop where
  numbers : (added seen).map Record.id = List.range' 1 d.counter
  records : d.records.Perm (listed seen)
  balance : ∀ id, seen.countP (Turn.returns id) + d.records.countP (fun r => r.id = id) =
    (added seen).countP fun r => r.id = id

theorem Follows.increasing (h : Follows d seen) :
    ((added seen).map Record.id).Pairwise (· < ·) := by
  rw [h.numbers]
  exact List.pairwise_lt_range'

theorem Follows.listed_increasing (h : Follows d seen) :
    ((listed seen).map Record.id).Pairwise (· < ·) :=
  h.increasing.sublist ((listed_sublist seen).map Record.id)

theorem Follows.nodup (h : Follows d seen) : (d.records.map Record.id).Nodup :=
  (h.records.map Record.id).nodup_iff.mpr (h.listed_increasing.imp Nat.ne_of_lt)

theorem Follows.step (h : Follows d seen) (e : Event) :
    Follows (d.step e).1 (seen ++ [⟨e, (d.step e).2⟩]) := by
  constructor
  · rw [added_append, added_turn, List.map_append, h.numbers, step_numbers]
  · rw [step_records, listed_append, listed_turn]
    exact (h.records.filter _).append_right _
  · intro id
    have hbefore := h.balance id
    have hstep := step_balance d h.nodup e id
    have hlast : [(⟨e, (d.step e).2⟩ : Turn)].countP (Turn.returns id) =
        (Turn.returns id ⟨e, (d.step e).2⟩).toNat := by
      rw [List.countP_singleton]
      cases Turn.returns id ⟨e, (d.step e).2⟩ <;> rfl
    rw [added_append, added_turn, List.countP_append, List.countP_append, hlast]
    omega

theorem Run.follows (run : Run d seen) : Follows d seen := by
  induction run with
  | start => exact ⟨rfl, .refl _, fun _ => rfl⟩
  | next e run ih => exact ih.step e
  | reorder run h ih =>
      exact ⟨ih.numbers, h.trans ih.records, fun id => by rw [h.countP_eq, ih.balance]⟩

/-- Records are added as they were applied for. -/
theorem Run.added_as_applied (run : Run d seen) : ∀ x ∈ seen, ∀ a, x.event = .add a → ∃ id,
    x.answer = some ⟨id, recordName id a.name, a.kind, a.exemplar, a.configuration⟩ := by
  induction run with
  | start => simp
  | @next d seen e run ih =>
      intro x hx a hadd
      rcases List.mem_append.mp hx with hx | hx
      · exact ih x hx a hadd
      · obtain rfl := List.mem_singleton.mp hx
        obtain rfl : e = .add a := hadd
        exact ⟨d.counter + 1, rfl⟩
  | reorder run h ih => exact ih

/-- The queues are shown as they were added, without those that were removed. -/
theorem Follows.queues_eq (h : Follows d seen) : d.queues = listed seen := by
  have hids : (d.queues.map Record.id).Pairwise (· < ·) := pairwise_mergeSort_key h.nodup
  have hsorted : d.queues.Pairwise fun r s => r.id < s.id := List.pairwise_map.mp hids
  have hlisted : (listed seen).Pairwise fun r s => r.id < s.id :=
    List.pairwise_map.mp h.listed_increasing
  have hperm : d.queues.Perm (listed seen) := (List.mergeSort_perm ..).trans h.records
  exact hperm.eq_of_pairwise (fun r s _ _ hrs hsr => absurd hrs (Nat.lt_asymm hsr)) hsorted hlisted

theorem mem_queues {r : Record} : r ∈ d.queues ↔ r ∈ d.records := List.mem_mergeSort

theorem Follows.get?_eq_some (h : Follows d seen) {id : Nat} {r : Record} :
    d.get? id = some r ↔ r ∈ d.queues ∧ r.id = id := by
  rw [mem_queues]
  constructor
  · exact mem_of_find?_key
  · rintro ⟨hr, rfl⟩
    exact find?_key h.nodup hr

/-- Nobody else gets the number of a record, so it is returned once at most. -/
theorem Follows.returned_once (h : Follows d seen) (id : Nat) :
    seen.countP (Turn.returns id) ≤ 1 := by
  have honce : ((added seen).map Record.id).count id ≤ 1 :=
    List.nodup_iff_count_le_one.mp (h.increasing.imp Nat.ne_of_lt) id
  have hadded : (added seen).countP (fun r => r.id = id) =
      ((added seen).map Record.id).count id := by
    rw [List.count_eq_countP, List.countP_map]
    rfl
  have hbalance := h.balance id
  omega

theorem findByName?_some {name : String} {r : Record} (h : d.findByName? name = some r) :
    r ∈ d.queues ∧ r.name = name := by
  rw [mem_queues]
  exact mem_of_find?_key h

theorem isSome_findByName? {name : String} :
    (d.findByName? name).isSome = true ↔ ∃ r ∈ d.queues, r.name = name := by
  simp only [mem_queues, findByName?, List.find?_isSome, decide_eq_true_eq]

end Run

end Directory

section Summary

variable {τ : Type}

/-- A batch table that has come from a run, in whatever order it keeps its batches. -/
def BatchTable.Kept (t : BatchTable τ) : Prop :=
  ∃ (u : BatchTable τ) (turns : List (BatchTurn τ)), u.Run turns ∧ t.batches.Perm u.batches

theorem BatchTable.Kept.nodup {t : BatchTable τ} (h : t.Kept) : (t.batches.map Batch.id).Nodup := by
  obtain ⟨u, turns, run, hperm⟩ := h
  exact (hperm.map Batch.id).nodup_iff.mpr run.books.numbered.nodup

/-- A record has a summary exactly if the sum of its workers fits a word. -/
theorem isSome_summary (t : BatchTable τ) (r : Record) (pool : Snapshot) :
    (r.summary pool t).isSome = true ↔ Batch.total t.batches < wordSize := by
  have hperm : t.workers.Perm t.batches := List.mergeSort_perm ..
  have hcounts : (t.workers.map Batch.info).map BatchInfo.count = t.workers.map Batch.count := by
    rw [List.map_map]
    rfl
  rw [Record.summary, hcounts, wordSum?_eq, (hperm.map Batch.count).sum_eq, ← Batch.total_eq_sum]
  split <;> simp_all

/-- A summary shows every recorded batch once, in strictly increasing order, and as its number of
workers the sum of what these count. -/
theorem summary_of_kept {t : BatchTable τ} (kept : t.Kept) {r : Record} {pool : Snapshot}
    {s : Summary} (h : r.summary pool t = some s) :
    s.record = r ∧ s.pool = pool ∧
    s.workers.Perm (t.batches.map Batch.info) ∧
    (s.workers.map BatchInfo.id).Pairwise (· < ·) ∧
    s.workerNumber = (s.workers.map BatchInfo.count).sum ∧
    t.workerNumber = some s.workerNumber := by
  have hperm : t.workers.Perm t.batches := List.mergeSort_perm ..
  obtain ⟨number, hnumber, rfl⟩ : ∃ number,
      wordSum? ((t.workers.map Batch.info).map BatchInfo.count) = some number ∧
        Summary.mk r pool number (t.workers.map Batch.info) = s := by
    simpa [Record.summary, Option.bind_eq_some_iff] using h
  have hsum : number = ((t.workers.map Batch.info).map BatchInfo.count).sum := by
    rw [wordSum?_eq] at hnumber
    split at hnumber
    · exact (Option.some.inj hnumber).symm
    · cases hnumber
  refine ⟨rfl, rfl, hperm.map Batch.info, ?_, hsum, ?_⟩
  · have hids : (t.workers.map Batch.info).map BatchInfo.id = t.workers.map Batch.id := by
      rw [List.map_map]
      rfl
    rw [hids]
    exact pairwise_mergeSort_key kept.nodup
  · have hcounts : (t.workers.map Batch.info).map BatchInfo.count = t.workers.map Batch.count := by
      rw [List.map_map]
      rfl
    rw [BatchTable.workerNumber, ← hnumber, hcounts, wordSum?_eq, wordSum?_eq,
      (hperm.map Batch.count).sum_eq]

end Summary

/-- A function that may fail succeeds along a list exactly with what it makes of each member. -/
theorem mapM_eq_some_iff {α β : Type} {f : α → Option β} {l : List α} {r : List β} :
    l.mapM f = some r ↔ l.map f = r.map some := by
  induction l generalizing r with
  | nil => cases r <;> simp
  | cons a l ih =>
      cases r with
      | nil => simp [List.mapM_cons, Option.bind_eq_some_iff]
      | cons b r => simp [List.mapM_cons, Option.bind_eq_some_iff, ih]

theorem isSome_mapM {α β : Type} {f : α → Option β} {l : List α} :
    (l.mapM f).isSome = true ↔ ∀ a ∈ l, (f a).isSome = true := by
  induction l with
  | nil => simp
  | cons a l ih =>
      rw [List.forall_mem_cons, ← ih, List.mapM_cons]
      cases f a <;> cases l.mapM f <;> simp

namespace Directory

variable {d : Directory} {seen : List Turn}

section Summaries

variable {τ : Type} {view : Record → Snapshot × BatchTable τ}

theorem isSome_summaries (d : Directory) (view : Record → Snapshot × BatchTable τ) :
    (d.summaries view).isSome = true ↔
      ∀ r ∈ d.queues, Batch.total (view r).2.batches < wordSize := by
  rw [summaries, isSome_mapM]
  exact forall₂_congr fun r _ => isSome_summary (view r).2 r (view r).1

/-- Each of the summaries is that of a listed record. -/
theorem mem_summaries {shown : List Summary} (h : d.summaries view = some shown) {s : Summary}
    (hs : s ∈ shown) : ∃ r ∈ d.queues, r.summary (view r).1 (view r).2 = some s := by
  have hmem : some s ∈ d.queues.map fun r => r.summary (view r).1 (view r).2 :=
    mapM_eq_some_iff.mp h ▸ List.mem_map_of_mem hs
  exact List.mem_map.mp hmem

/-- Each listed record has one of the summaries, in the order of the list. -/
theorem summaries_records (kept : ∀ r ∈ d.queues, (view r).2.Kept) {shown : List Summary}
    (h : d.summaries view = some shown) : shown.map Summary.record = d.queues := by
  have heach := mapM_eq_some_iff.mp h
  have hrecord (r : Record) (hr : r ∈ d.queues) :
      (r.summary (view r).1 (view r).2).map Summary.record = some r := by
    have hmem : r.summary (view r).1 (view r).2 ∈ shown.map some :=
      heach ▸ List.mem_map_of_mem hr
    obtain ⟨s, -, hs⟩ := List.mem_map.mp hmem
    rw [← hs, Option.map_some, (summary_of_kept (kept r hr) hs.symm).1]
  apply List.map_injective_iff.mpr fun r r' => Option.some.inj
  calc (shown.map Summary.record).map some
      = (shown.map some).map (Option.map Summary.record) := by simp
    _ = d.queues.map fun r => (r.summary (view r).1 (view r).2).map Summary.record := by
        rw [← heach, List.map_map]
        rfl
    _ = d.queues.map some := List.map_congr_left hrecord

end Summaries

/-- Whatever a manager is told, in whatever order, and however it keeps its records. Records get the
numbers from one on in the order of their additions, as they were applied for and with a name made
from the number where none was wished for, and no number comes back. The queues are the records that
were added and have not been removed since, each once and in strictly increasing order. A number
finds the record that is listed under it, and nothing if there is none; removing it returns what it
finds, once at most. A name finds one of the listed records of this name, if there is any. The
number of records and whether there is any agree with the list. The summaries can be told exactly if
the workers of each listed record can be counted in a word; asking for them breaks off otherwise.
They then agree with the list, and each shows every batch that its record knows of once, in strictly
increasing order, and as its number of workers the sum of what these count. -/
theorem manager_agrees_with_history {τ : Type} (run : d.Run seen) :
    ((added seen).map Record.id = List.range' 1 (added seen).length ∧
      ∀ x ∈ seen, ∀ a, x.event = .add a → ∃ id,
        x.answer = some ⟨id, recordName id a.name, a.kind, a.exemplar, a.configuration⟩) ∧
    ((d.queues.map Record.id).Pairwise (· < ·) ∧
      d.queues = listed seen ∧
      ∀ r, r ∈ d.queues ↔ ∃ before later a,
        seen = before ++ ⟨.add a, some r⟩ :: later ∧ ∀ x ∈ later, x.event ≠ .remove r.id) ∧
    (∀ id r, d.get? id = some r ↔ r ∈ d.queues ∧ r.id = id) ∧
    (∀ id, (d.step (.remove id)).2 = d.get? id ∧ seen.countP (Turn.returns id) ≤ 1) ∧
    (∀ name, (∀ r, d.findByName? name = some r → r ∈ d.queues ∧ r.name = name) ∧
      ((d.findByName? name).isSome = true ↔ ∃ r ∈ d.queues, r.name = name)) ∧
    (d.size = d.queues.length ∧ (d.isEmpty = true ↔ d.queues = [])) ∧
    ∀ view : Record → Snapshot × BatchTable τ, (∀ r ∈ d.queues, (view r).2.Kept) →
      ((d.summaries view).isSome = true ↔
        ∀ r ∈ d.queues, Batch.total (view r).2.batches < wordSize) ∧
      ∀ shown, d.summaries view = some shown →
        shown.map Summary.record = d.queues ∧
        ∀ s ∈ shown,
          s.pool = (view s.record).1 ∧
          s.workers.Perm ((view s.record).2.batches.map Batch.info) ∧
          (s.workers.map BatchInfo.id).Pairwise (· < ·) ∧
          s.workerNumber = (s.workers.map BatchInfo.count).sum ∧
          (view s.record).2.workerNumber = some s.workerNumber := by
  have follows := run.follows
  have hlisted := follows.queues_eq
  refine ⟨⟨?_, ?_⟩, ⟨?_, hlisted, ?_⟩, ?_, ?_, ?_, ⟨?_, ?_⟩, ?_⟩
  · have hlength : (added seen).length = d.counter := by
      rw [← List.length_map Record.id, follows.numbers, List.length_range']
    rw [follows.numbers, hlength]
  · exact run.added_as_applied
  · rw [hlisted]
    exact follows.listed_increasing
  · intro r
    rw [hlisted]
    exact mem_listed
  · exact fun id r => follows.get?_eq_some
  · exact fun id => ⟨rfl, follows.returned_once id⟩
  · exact fun name => ⟨fun r => findByName?_some, isSome_findByName?⟩
  · exact (List.length_mergeSort _).symm
  · rw [isEmpty, List.isEmpty_iff, ← List.length_eq_zero_iff, ← List.length_eq_zero_iff, queues,
      List.length_mergeSort]
  · intro view kept
    constructor
    · exact isSome_summaries d view
    · intro shown hshown
      refine ⟨summaries_records kept hshown, fun s hs => ?_⟩
      obtain ⟨r, hr, hsummary⟩ := mem_summaries hshown hs
      obtain ⟨rfl, rest⟩ := summary_of_kept (kept r hr) hsummary
      exact rest

/-- A name that is wished for twice and made once, a record that is removed twice, one that is
removed before it is added, and one whose name is empty. -/
def collidingNames : List Event :=
  [.add ⟨some "queue-2", "channel", "u64", .null⟩, .add ⟨none, "channel", "mail", .null⟩,
    .add ⟨some "queue-2", "channel", "u64", .null⟩, .remove 1, .remove 1, .remove 4,
    .add ⟨some "", "channel", "u64", .null⟩]

/-- A record whose pool shows nothing, and which knows of these batches. -/
def showing (batches : List (BatchEvent Nat)) : Snapshot × BatchTable Nat :=
  (⟨.idle, 0, 0, none, 0, .zero, .zero⟩, (BatchTable.tell {} batches).1)

theorem kept_showing (batches : List (BatchEvent Nat)) : (showing batches).2.Kept :=
  ⟨_, _, BatchTable.Run.start.tell batches, .refl _⟩

theorem manager_agrees_with_history_colliding :
    ∃ (d : Directory) (seen : List Turn) (view : Record → Snapshot × BatchTable Nat)
      (shown : List Summary),
      d.Run seen ∧ seen.map Turn.event = collidingNames ∧ (∀ r ∈ d.queues, (view r).2.Kept) ∧
      d.records.map Record.id = [4, 3, 2] ∧ d.queues.map Record.id = [2, 3, 4] ∧
      d.queues.map Record.name = ["queue-2", "queue-2", "queue-4"] ∧ d.get? 1 = none ∧
      seen.countP (Turn.returns 1) = 1 ∧ (d.findByName? "queue-2").isSome = true ∧
      d.summaries view = some shown ∧ shown.map Summary.record = d.queues ∧
      ∀ s ∈ shown, s.workerNumber = 4 := by
  let seen := (tell {} collidingNames).2
  let records := (tell {} collidingNames).1.records.reverse
  let table : List (BatchEvent Nat) :=
    [.register 3 10 none false, .register 2 11 none false, .exited 1]
  have run : Run { counter := 4, records } seen :=
    .reorder (Run.start.tell collidingNames) (List.reverse_perm _)
  have kept : ∀ r ∈ queues { counter := 4, records }, (showing table).2.Kept :=
    fun _ _ => kept_showing table
  obtain ⟨-, ⟨-, hlisted, -⟩, hget, -, hfind, -, hshown⟩ :=
    manager_agrees_with_history (τ := Nat) run
  obtain ⟨hwhole, hsummaries⟩ := hshown (fun _ => showing table) kept
  obtain ⟨shown, hsome⟩ := Option.isSome_iff_exists.mp (hwhole.mpr fun _ _ => by decide)
  obtain ⟨hrecords, heach⟩ := hsummaries shown hsome
  refine ⟨_, seen, _, shown, run, rfl, kept, rfl, ?_, ?_, rfl, rfl, ?_, hsome, hrecords,
    fun s hs => ?_⟩
  · rw [hlisted]
    rfl
  · rw [hlisted]
    rfl
  · have hthird := (hget 3 _).mp rfl
    exact (hfind "queue-2").2.mpr ⟨_, hthird.1, rfl⟩
  · obtain ⟨-, hworkers, -, hnumber, -⟩ := heach s hs
    rw [hnumber, (hworkers.map BatchInfo.count).sum_eq]
    rfl

/-- One record of two knows of two batches that are each counted in a word, and whose sum is not. No
summary can be told then, not even of the other record. -/
theorem summaries_break_off :
    ¬ ∀ (d : Directory) (seen : List Turn) (view : Record → Snapshot × BatchTable Nat),
      d.Run seen → (∀ r ∈ d.queues, (view r).2.Kept) →
        (d.summaries view).map (List.map Summary.record) = some d.queues := by
  intro h
  let table : List (BatchEvent Nat) :=
    [.register (wordSize - 1) 10 none false, .register 1 11 none false]
  let view : Record → Snapshot × BatchTable Nat := fun r => showing (if r.id = 1 then table else [])
  let d := (tell {} [.add ⟨some "jobs", "channel", "u64", .null⟩,
    .add ⟨some "mail", "channel", "u64", .null⟩]).1
  have hnone : ¬ (d.summaries view).isSome = true := by
    rw [isSome_summaries]
    intro hfits
    have hfirst := hfits ⟨1, "jobs", "channel", "u64", .null⟩
      (mem_queues.mpr (by simp [d, tell, step, add, recordName]))
    revert hfirst
    decide
  have hsome := h d _ view (Run.start.tell _) fun r _ => kept_showing _
  apply hnone
  rw [← Option.isSome_map, hsome]
  rfl

end Directory

end Coordination.Manager
