import Coordination.Proofs.Pool.Passage
import Coordination.Proofs.Pool.Conservation
import Coordination.Proofs.Pool.Control
import Coordination.Proofs.Pool.LastCall

/-!
Batches keep the order of the items. Accepted items are numbered in the order in which they entered
the buffer. A worker takes them from the front and hands them over as it took them, so what it hands
over in its whole life goes up in that numbering, whatever other workers take in between. A batch is
cut when it is full, so it is longer only when the worker of a terminated pool takes all that is
left; and workers that are there one at a time go on where the one before them stopped.
-/

namespace Coordination.Pool

variable {α : Type}

section Cuts

/-- A handler call of the event has items, and no more than a full batch of them unless it is a
worker's last one in a pool that has been terminated. -/
def Event.Cut (p : Pool α) : Event α → Prop
  | .called _ batch last =>
    batch ≠ [] ∧ (p.config.fullBatch < batch.length → last = true ∧ p.terminated = true)
  | _ => True

def Trim (p : Pool α) : Prop := ∀ w ∈ p.workers, w.batch.length < p.config.fullBatch

/-- A step whose handler calls are cut and after which no worker holds a full batch. -/
structure Cuts (p : Pool α) (o : Outcome α) : Prop where
  cut : ∀ e ∈ o.2, e.Cut p
  trim : Trim o.1

section Worker

variable {p q : Pool α} {w v : Worker α}

theorem update_trim (h : Trim p) (hworkers : q.workers = p.workers) (hconfig : q.config = p.config)
    (hbatch : v.batch.length < p.config.fullBatch) : Trim (q.update v) := by
  intro u hu
  change u.batch.length < q.config.fullBatch
  rw [hconfig]
  rcases mem_update hu with rfl | hu
  · exact hbatch
  · exact h u (hworkers ▸ hu)

theorem call_cuts (h : Trim p) (hworkers : q.workers = p.workers) (hconfig : q.config = p.config)
    {batch : List (Entry α)} (hsome : batch ≠ []) {last : Bool}
    (hsize : p.config.fullBatch < batch.length → last = true ∧ p.terminated = true) :
    Cuts p (q.call v batch last) := by
  refine ⟨?_, update_trim h hworkers hconfig p.config.fullBatch_pos⟩
  intro e he
  obtain rfl := List.mem_singleton.mp he
  exact ⟨hsome, hsize⟩

theorem callLast_cuts (h : Trim p) (hworkers : q.workers = p.workers)
    (hconfig : q.config = p.config)
    {batch : List (Entry α)} (hsize : p.config.fullBatch < batch.length → p.terminated = true) :
    Cuts p (q.callLast w batch) := by
  unfold callLast
  split
  · refine ⟨by simp [exit, Event.Cut], fun u hu => ?_⟩
    change u.batch.length < q.config.fullBatch
    rw [hconfig]
    exact h u (hworkers ▸ List.mem_of_mem_filter hu)
  · rename_i hsome
    exact call_cuts h hworkers hconfig (by simpa using hsome) fun hlong => ⟨rfl, hsize hlong⟩

theorem Cuts.after {o : Outcome α} (h : Cuts p o) {events : List (Event α)}
    (hcut : ∀ e ∈ events, e.Cut p) : Cuts p (after events o) := by
  refine ⟨fun e he => ?_, h.trim⟩
  rcases List.mem_append.mp he with he | he
  · exact hcut e he
  · exact h.cut e he

theorem works_cuts (h : Trim p) (hw : w ∈ p.workers) {o : Outcome α} (works : Works p w o) :
    Cuts p o := by
  have hshort : w.batch.length < p.config.fullBatch := h w hw
  have hlast : Cuts p (p.callLast w w.batch) :=
    callLast_cuts h rfl rfl fun hlong => absurd hlong (Nat.lt_asymm hshort)
  cases works with
  | noRoom holds unfit =>
      exact ⟨by simp [exit, Event.Cut], fun u hu => h u (List.mem_of_mem_filter hu)⟩
  | drain stopped halted =>
      refine (callLast_cuts (q := { p with buffer := [] }) h rfl rfl fun _ => halted).after ?_
      intro e he
      obtain ⟨entry, -, rfl⟩ := List.mem_map.mp he
      trivial
  | stop stopped runs => exact hlast
  | finish goes empty closed => exact hlast
  | @take goes e rest front =>
      unfold take
      dsimp only
      split
      · have hsome : w.batch ++ [e] ≠ [] := by simp
        refine (call_cuts (q := { p with buffer := rest }) h rfl rfl hsome ?_).after
          (by simp [Event.Cut])
        -- One item more than a batch that was not full makes it full at most.
        simp only [List.length_append, List.length_singleton]
        omega
      · rename_i hroom
        exact ⟨by simp [Event.Cut], update_trim h rfl rfl (not_le.mp hroom)⟩
  | wait goes empty opened ready =>
      exact ⟨by simp [Event.Cut], update_trim h rfl rfl hshort⟩
  | wake goes empty opened waits late =>
      unfold idleFlush
      dsimp only
      split
      · exact ⟨by simp [Event.Cut], update_trim h rfl rfl hshort⟩
      · rename_i hsome
        refine Cuts.after (call_cuts h rfl rfl (by simpa using hsome) ?_) (by simp [Event.Cut])
        exact fun hlong => absurd hlong (Nat.lt_asymm hshort)

end Worker

/-- Every handler call is cut, and no worker comes to hold a full batch. -/
theorem step_cuts {p : Pool α} (h : Trim p) {label : Label α} {o : Outcome α}
    (ho : p.step label = some o) : Cuts p o := by
  have hquiet {q : Pool α} {events : List (Event α)} (hworkers : q.workers = p.workers)
      (hconfig : q.config = p.config) (hcut : ∀ e ∈ events, e.Cut p) : Cuts p (q, events) := by
    refine ⟨hcut, fun u hu => ?_⟩
    change u.batch.length < q.config.fullBatch
    rw [hconfig]
    exact h u (hworkers ▸ hu)
  have hhire (q : Pool α) (count : Nat) (lifetime : Option Duration) (events : List (Event α))
      (hworkers : q.workers = p.workers) (hconfig : q.config = p.config)
      (hcut : ∀ e ∈ events, e.Cut p) : Cuts p (after events (q.hire count lifetime)) := by
    refine Cuts.after ⟨by simp [hire, Event.Cut], fun u hu => ?_⟩ hcut
    change u.batch.length < q.config.fullBatch
    rw [hconfig]
    rcases mem_hire hu with hu | ⟨i, -, rfl⟩
    · exact h u (hworkers ▸ hu)
    · exact p.config.fullBatch_pos
  cases step_acts ho with
  | push item cancelled becomes =>
      cases becomes <;> exact hquiet rfl rfl (by simp [Event.Cut])
  | resume waits becomes =>
      cases becomes with
      | boost => exact hhire _ _ _ _ rfl rfl (by simp [Event.Cut])
      | refuse | accept | deny | breakOff => exact hquiet rfl rfl (by simp [Event.Cut])
  | work here free works => exact works_cuts h (worker?_some here).1 works
  | addWorkers stay => exact hhire _ _ _ [] rfl rfl (by simp)
  | finishLast here calls ends =>
      refine ⟨by simp [after, exit, Event.Cut], fun u hu => ?_⟩
      exact h u (List.mem_of_mem_filter hu)
  | @finish w here batch calls =>
      have hshort : w.batch.length < p.config.fullBatch := h w (worker?_some here).1
      exact ⟨by simp [Event.Cut], update_trim h rfl rfl hshort⟩
  | stopCrew crew =>
      obtain ⟨stopped, hstop⟩ := stopCrew_eq p crew
      rw [hstop]
      exact hquiet rfl rfl (by simp)
  | @expireBoost d | @endStay d =>
      obtain ⟨stopped, hstop⟩ := stopCrew_eq p d.crew
      rw [hstop]
      exact hquiet rfl rfl (by simp [Event.Cut])
  | cancelPush | dropPush | addNobody | startBroke | dropStay | flushed | flushFailed | flushWaits
  | giveUpFlush | pollFlushed | pollAgain | cancelFlush | dropFlush | setMaxWorkers | manage
  | shutdown | terminate | tick => exact hquiet rfl rfl (by simp [Event.Cut])

end Cuts

section Runs

variable {config : Config} {may : Pool α → Label α → Prop} {p : Pool α}
  {labels : List (Label α)} {history : List (Nat × Event α)}

theorem Run.trim (run : Run config may p labels history) : Trim p := by
  induction run with
  | start now => exact fun w hw => absurd hw List.not_mem_nil
  | next run hmay hstep ih => exact (step_cuts ih hstep).trim

theorem Run.called_ne_nil (run : Run config may p labels history) {t id : Nat}
    {batch : List (Entry α)} {last : Bool} (h : (t, .called id batch last) ∈ history) :
    batch ≠ [] := by
  induction run with
  | start now => exact absurd h List.not_mem_nil
  | next run hmay hstep ih =>
      rcases List.mem_append.mp h with hbefore | hnow
      · exact ih hbefore
      · obtain ⟨-, he⟩ := mem_stamp.mp hnow
        exact ((step_cuts run.trim hstep).cut _ he).1

end Runs

section Places

/-- The number of an accepted item in the order in which they entered the buffer. -/
def place (history : List (Nat × Event α)) (e : Entry α) : Nat := (accepted history).idxOf e.push

/-- Accepted items in the order in which they entered the buffer, none of them twice. -/
def InOrder (history : List (Nat × Event α)) (entries : List (Entry α)) : Prop :=
  (∀ e ∈ entries, e.push ∈ accepted history) ∧
    (entries.map (place history)).Pairwise (· < ·)

theorem pairwise_idxOf {l : List Nat} (h : l.Nodup) : (l.map l.idxOf).Pairwise (· < ·) := by
  rw [List.pairwise_iff_getElem]
  intro i j hi hj hij
  rw [List.getElem_map, List.getElem_map, h.idxOf_getElem, h.idxOf_getElem]
  exact hij

theorem inOrder_of_sublist {history : List (Nat × Event α)} (hnodup : (accepted history).Nodup)
    {entries : List (Entry α)} (h : (entries.map Entry.push).Sublist (accepted history)) :
    InOrder history entries := by
  constructor
  · intro e he
    exact h.subset (List.mem_map_of_mem he)
  · have hup := (pairwise_idxOf hnodup).sublist (h.map (accepted history).idxOf)
    rwa [List.map_map] at hup

theorem InOrder.sublist {history : List (Nat × Event α)} {entries some_ : List (Entry α)}
    (h : InOrder history entries) (hsub : some_.Sublist entries) : InOrder history some_ :=
  ⟨fun e he => h.1 e (hsub.subset he), h.2.sublist (hsub.map _)⟩

theorem batch_sublist {history : List (Nat × Event α)} {t id : Nat} {batch : List (Entry α)}
    {last : Bool} (h : (t, .called id batch last) ∈ history) :
    batch.Sublist (handedBy id history) := by
  have hmem : (id, batch) ∈ (handoffs history).filter fun c => c.1 = id := by
    rw [List.mem_filter, handoffs, List.mem_filterMap]
    exact ⟨⟨_, h, rfl⟩, by simp⟩
  rw [handedBy, List.flatMap_def]
  exact List.sublist_flatten_of_mem (List.mem_map_of_mem hmem)

end Places

/-- Batches keep the order of the items. Accepted items are numbered as they entered the buffer.
Every batch that is handed to a handler has items, and they go up in that numbering; so do all that
one worker hands over, call after call. A batch is longer than a full one only in a call that is
called the last, after the pool has been terminated, and a worker that has made such a call makes no
other one. And if there is never more than one worker at a time, the items are handed over, and
their calls end, in the order in which they entered the buffer, with none left out. -/
theorem batches_in_order {config : Config} {may : Pool α → Label α → Prop} {p : Pool α}
    {labels : List (Label α)} {history : List (Nat × Event α)}
    (run : Run config may p labels history) :
    (∀ t id batch last, (t, .called id batch last) ∈ history →
      batch ≠ [] ∧ InOrder history batch) ∧
    (∀ id, InOrder history (handedBy id history)) ∧
    (∀ label q events, p.step label = some (q, events) →
      ∀ id batch last, .called id batch last ∈ events →
        max config.batchLength.toNat 1 < batch.length → last = true ∧ .terminate ∈ labels) ∧
    (∀ id, true ∉ (lastsOf id history).dropLast) ∧
    ((∀ q label, may q label → q.workers.length ≤ 1) →
      handedOver history <+: accepted history ∧
      (ended history).map Entry.push <+: accepted history) := by
  have hnodup : (accepted history).Nodup := (List.nodup_append.mp run.accepted_refused_nodup).1
  have hbuffer := run.accepted_eq
  have hworker (id : Nat) : InOrder history (handedBy id history) := by
    have hown : ((handedBy id history).map Entry.push).Sublist (takenBy id history) :=
      run.takenBy_eq id ▸ List.sublist_append_left ..
    have hall : (takenBy id history).Sublist (taken history) := List.filter_sublist.map Prod.snd
    have hfront : (taken history).Sublist (accepted history) :=
      hbuffer ▸ List.sublist_append_left ..
    exact inOrder_of_sublist hnodup ((hown.trans hall).trans hfront)
  refine ⟨?_, hworker, ?_, run.lastsOf_dropLast, ?_⟩
  · intro t id batch last hcalled
    exact ⟨run.called_ne_nil hcalled, (hworker id).sublist (batch_sublist hcalled)⟩
  · intro label q events hstep id batch last hcalled hlong
    have hcut := (step_cuts run.trim hstep).cut _ hcalled
    rw [Event.Cut, run.roster.2] at hcut
    obtain ⟨hlast, halted⟩ := hcut.2 hlong
    exact ⟨hlast, run.terminated_iff.mp halted⟩
  · intro single
    obtain ⟨htaken, hhanded⟩ := run.taken_eq single
    have hover : handedOver history <+: accepted history := by
      refine ⟨p.held ++ p.buffered, ?_⟩
      rw [hbuffer, htaken, List.append_assoc]
    refine ⟨hover, List.IsPrefix.trans ⟨p.calls.map Entry.push, ?_⟩ hover⟩
    rw [handedOver, hhanded, List.map_append]

def pairConfig : Config := { queueLength := 4, batchLength := 2 }

/-- Two workers take items in turn. -/
def turnSteps : List (Label Nat) :=
  [.push 10 false, .push 20 false, .push 30 false, .push 40 false, .addWorkers 2 none, .work 0,
    .work 1, .work 0, .work 1, .finish 0 false]

def Alone (p : Pool α) (_ : Label α) : Prop := p.workers.length ≤ 1

instance decidableAlone (p : Pool α) (label : Label α) : Decidable (Alone p label) :=
  inferInstanceAs (Decidable (p.workers.length ≤ 1))

/-- A worker is stopped with one item in hand; the one after it hands over a full batch, and holds
one item when the pool is terminated. -/
def relaySteps : List (Label Nat) :=
  [.push 10 false, .push 20 false, .push 30 false, .addWorkers 1 none, .work 0, .stopCrew 0,
    .work 0, .finish 0 false, .addWorkers 1 none, .work 1, .work 1, .push 40 false,
    .push 50 false, .push 60 false, .finish 1 false, .work 1, .terminate]

theorem batches_in_order_relay :
    (∃ (p : Pool Nat) (history : List (Nat × Event Nat)),
      Run pairConfig AnyStep p turnSteps history ∧
      handoffs history = [(0, [⟨0, 10⟩, ⟨2, 30⟩]), (1, [⟨1, 20⟩, ⟨3, 40⟩])] ∧
      InOrder history [⟨0, 10⟩, ⟨2, 30⟩] ∧ InOrder history (handedBy 1 history)) ∧
    ∃ (p q : Pool Nat) (history : List (Nat × Event Nat)) (events : List (Event Nat)),
      Run pairConfig Alone p relaySteps history ∧
      handoffs history = [(0, [⟨0, 10⟩]), (1, [⟨1, 20⟩, ⟨2, 30⟩])] ∧
      handedOver history <+: accepted history ∧
      p.step (.work 1) = some (q, events) ∧
      .called 1 [⟨3, 40⟩, ⟨4, 50⟩, ⟨5, 60⟩] true ∈ events ∧ .terminate ∈ relaySteps := by
  have turns : Run pairConfig AnyStep _ ([] ++ turnSteps) _ :=
    (Run.start 0 8).replay (fun _ _ _ => trivial) rfl
  have relay : Run pairConfig Alone _ ([] ++ relaySteps) _ :=
    (Run.start 0 8).replay_allowed (by decide) rfl
  obtain ⟨hcalls, hworkers, -⟩ := batches_in_order turns
  obtain ⟨-, -, hlong, -, hsingle⟩ := batches_in_order relay
  refine ⟨⟨_, _, turns, by decide, (hcalls 0 0 _ false (by decide)).2, hworkers 1⟩, ?_⟩
  refine ⟨_, _, _, _, relay, by decide, (hsingle fun _ _ alone => alone).1, rfl, by decide, ?_⟩
  exact (hlong (.work 1) _ _ rfl 1 [⟨3, 40⟩, ⟨4, 50⟩, ⟨5, 60⟩] true (by decide) (by decide)).2

end Coordination.Pool
