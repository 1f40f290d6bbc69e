import Coordination.Proofs.Pool.Motion

/-!
The order of items on their way through a pool. Items leave the buffer at its front, in the order
in which they entered it, and a worker hands them over in the order in which it took them. So there
are two conservation laws, both between lists: what has entered the buffer is what has been taken
out of it followed by what is in it, and what a worker has taken is what it has handed over followed
by what it holds. Where at most one worker is there at a time, the second law holds of all workers
together.
-/

namespace Coordination.Pool

variable {α : Type}

section Views

/-- What has been taken out of the buffer, in order: the worker and the push. -/
def takings (history : List (Nat × Event α)) : List (Nat × Nat) :=
  history.filterMap fun h =>
    match h.2 with
    | .took worker push => some (worker, push)
    | _ => none

/-- What has been handed to a handler, call by call: the worker and the batch. -/
def handoffs (history : List (Nat × Event α)) : List (Nat × List (Entry α)) :=
  history.filterMap fun h =>
    match h.2 with
    | .called worker batch _ => some (worker, batch)
    | _ => none

def taken (history : List (Nat × Event α)) : List Nat := (takings history).map Prod.snd

def takenBy (id : Nat) (history : List (Nat × Event α)) : List Nat :=
  ((takings history).filter fun t => t.1 = id).map Prod.snd

/-- What one worker has handed to a handler, call by call. -/
def handedBy (id : Nat) (history : List (Nat × Event α)) : List (Entry α) :=
  ((handoffs history).filter fun c => c.1 = id).flatMap Prod.snd

def heldBy (id : Nat) (workers : List (Worker α)) : List (Entry α) :=
  (workers.filter fun w => w.id = id).flatMap Worker.batch

/-- What a history tells about the order of items. -/
structure Account (α : Type) where
  accepted : List Nat := []
  takings : List (Nat × Nat) := []
  handoffs : List (Nat × List (Entry α)) := []
  ended : List (Entry α) := []

def account (history : List (Nat × Event α)) : Account α :=
  ⟨accepted history, takings history, handoffs history, ended history⟩

theorem handed_eq_handoffs (history : List (Nat × Event α)) :
    handed history = (handoffs history).flatMap Prod.snd := by
  induction history with
  | nil => rfl
  | cons h rest ih =>
      obtain ⟨t, e⟩ := h
      cases e <;> simpa [handed, handoffs] using ih

theorem account_took (now id : Nat) (entries : List (Entry α)) (events : List (Event α)) :
    account (stamp now (entries.map (fun e => Event.took id e.push) ++ events)) =
      { account (stamp now events) with
        takings := entries.map (fun e => (id, e.push)) ++ takings (stamp now events) } := by
  induction entries with
  | nil => rfl
  | cons e rest ih =>
      have htail := congrArg Account.takings ih
      simp only [account, Account.mk.injEq] at ih
      simp only [account, Account.mk.injEq]
      refine ⟨ih.1, ?_, ih.2.2⟩
      exact congrArg ((id, e.push) :: ·) ih.2.1

end Views

/-- A batch that a worker hands over; an empty one is not handed over. -/
def offer (id : Nat) (batch : List (Entry α)) : List (Nat × List (Entry α)) :=
  if batch.isEmpty then [] else [(id, batch)]

theorem offer_flatMap (id : Nat) (batch : List (Entry α)) :
    (offer id batch).flatMap Prod.snd = batch := by
  unfold offer
  split
  · rename_i hempty
    exact (List.isEmpty_iff.mp hempty).symm
  · simp

/-- What one step does to the order of items. -/
inductive Passes (p : Pool α) (o : Outcome α) : Prop where
  /-- No item moves; workers may come. -/
  | still (newcomers : List (Worker α)) (workers : o.1.workers = p.workers ++ newcomers)
    (fresh : ∀ u ∈ newcomers, u.batch = [] ∧ u.calling = []) (buffer : o.1.buffer = p.buffer)
    (told : ∀ now, account (stamp now o.2) = {})
  /-- An item enters the buffer. -/
  | enter (e : Entry α) (workers : o.1.workers = p.workers) (buffer : o.1.buffer = p.buffer ++ [e])
    (told : ∀ now, account (stamp now o.2) = { accepted := [e.push] })
  /-- One worker takes items off the front of the buffer, hands items over, comes back from a
  handler call or goes away. -/
  | serve (w : Worker α) (before remains after : List (Worker α))
    (taken handed ended : List (Entry α)) (here : p.workers = before ++ w :: after)
    (there : o.1.workers = before ++ (remains ++ after)) (same : ∀ u ∈ remains, u.id = w.id)
    (front : p.buffer = taken ++ o.1.buffer)
    (batch : w.batch ++ taken = handed ++ remains.flatMap Worker.batch)
    (calling : w.calling ++ handed = ended ++ remains.flatMap Worker.calling)
    (told : ∀ now, account (stamp now o.2) =
      ⟨[], taken.map fun e => (w.id, e.push), offer w.id handed, ended⟩)

section Serving

variable {p q : Pool α} {w v : Worker α} {events : List (Event α)}

/-- A worker that goes on in a new state. -/
theorem turn_passes (h : Roster p) (here : p.worker? v.id = some w)
    (workers : q.workers = (p.update v).workers) (taken handed ended : List (Entry α))
    (front : p.buffer = taken ++ q.buffer) (batch : w.batch ++ taken = handed ++ v.batch)
    (calling : w.calling ++ handed = ended ++ v.calling)
    (told : ∀ now, account (stamp now events) =
      ⟨[], taken.map fun e => (w.id, e.push), offer w.id handed, ended⟩) :
    Passes p (q, events) := by
  obtain ⟨before, after, hp, hq, -⟩ := h.place here
  refine Passes.serve w before [v] after taken handed ended hp (workers.trans hq) ?_ front ?_ ?_
    told
  · intro u hu
    rw [List.mem_singleton.mp hu]
    exact (worker?_some here).2.symm
  · simpa using batch
  · simpa using calling

/-- A worker that holds nothing and goes away. -/
theorem leave_passes (h : Roster p) (here : p.worker? w.id = some w)
    (workers : q.workers = (p.exit w).1.workers) (buffer : q.buffer = p.buffer)
    (batch : w.batch = [])
    (told : ∀ now, account (stamp now events) = { ended := w.calling }) :
    Passes p (q, events) := by
  obtain ⟨before, after, hp, -, hq⟩ := h.place here
  refine Passes.serve w before [] after [] [] w.calling hp (workers.trans hq) (by simp) ?_ ?_ ?_
    told
  · exact buffer.symm
  · simpa using batch
  · simp

/-- A worker that hands over all that it has and goes into the handler call. -/
theorem call_passes (h : Roster p) (here : p.worker? v.id = some w) (free : w.calling = [])
    (taken rest : List (Entry α)) (front : p.buffer = taken ++ rest)
    (some_held : w.batch ++ taken ≠ []) (last : Bool) (events : List (Event α))
    (told : ∀ now, account (stamp now events) =
      ⟨[], taken.map fun e => (w.id, e.push), [(w.id, w.batch ++ taken)], []⟩) :
    Passes p ((({ p with buffer := rest } : Pool α).call v (w.batch ++ taken) last).1, events) := by
  refine turn_passes (v := { v with batch := [], stance := .handling (w.batch ++ taken) last })
    h here rfl taken (w.batch ++ taken) [] front ?_ ?_ ?_
  · exact (List.append_nil _).symm
  · rw [free]
    rfl
  · intro now
    rw [told, offer, if_neg (by simpa using some_held)]

theorem callLast_passes (h : Roster p) (here : p.worker? w.id = some w) (free : w.calling = [])
    (taken rest : List (Entry α)) (front : p.buffer = taken ++ rest) :
    Passes p (after (taken.map fun e => .took w.id e.push)
      (({ p with buffer := rest } : Pool α).callLast w (w.batch ++ taken))) := by
  unfold callLast
  split
  · rename_i hempty
    obtain ⟨hbatch, rfl⟩ : w.batch = [] ∧ taken = [] := by simpa using hempty
    refine leave_passes h here rfl front.symm hbatch ?_
    intro now
    rw [free]
    rfl
  · rename_i hsome
    refine call_passes h here free taken rest front (by simpa using hsome) true _ ?_
    intro now
    exact (account_took now w.id taken _).trans (by simp [account, stamp, accepted, takings,
      handoffs, ended, call])

theorem take_passes (h : Roster p) (here : p.worker? w.id = some w) (free : w.calling = [])
    {e : Entry α} {rest : List (Entry α)} (front : p.buffer = e :: rest) :
    Passes p (p.take w e rest) := by
  unfold take
  dsimp only
  split
  · exact call_passes (v := { w with wait := firstWait }) h here free [e] rest front
      (by simp) false _ fun now => rfl
  · refine turn_passes (v := { w with batch := w.batch ++ [e], stance := .ready })
      h here rfl [e] [] [] front rfl ?_ fun now => rfl
    rw [free]
    rfl

/-- A worker that neither takes nor hands over. -/
theorem pause_passes (h : Roster p) (here : p.worker? w.id = some w) (free : w.calling = [])
    (wait : Nat) {stance : Stance α}
    (idle : (⟨w.id, w.crew, w.batch, wait, stance⟩ : Worker α).calling = [])
    (told : ∀ now, account (stamp now events) = {}) :
    Passes p (p.update ⟨w.id, w.crew, w.batch, wait, stance⟩, events) := by
  refine turn_passes (v := ⟨w.id, w.crew, w.batch, wait, stance⟩) h here rfl [] [] [] rfl ?_ ?_ told
  · exact List.append_nil _
  · rw [free, idle]

theorem works_passes (h : Roster p) (here : p.worker? w.id = some w) (free : w.calling = [])
    {o : Outcome α} (works : Works p w o) : Passes p o := by
  have hlast : Passes p (p.callLast w w.batch) := by
    simpa [after] using callLast_passes h here free [] p.buffer rfl
  cases works with
  | noRoom holds unfit =>
      refine leave_passes h here rfl rfl holds fun now => ?_
      rw [free]
      rfl
  | drain stopped halted => exact callLast_passes h here free p.buffer [] (List.append_nil _).symm
  | stop stopped runs => exact hlast
  | take goes front => exact take_passes h here free front
  | finish goes empty closed => exact hlast
  | wait goes empty opened ready => exact pause_passes h here free w.wait rfl fun _ => rfl
  | wake goes empty opened waits late =>
      unfold idleFlush
      dsimp only
      split
      · exact pause_passes h here free nextWait rfl fun _ => rfl
      · rename_i hsome
        have hcall := call_passes (v := { w with wait := nextWait }) h here free [] p.buffer rfl
          (by simpa using hsome) false [.waited w.id, .called w.id w.batch false]
          (by simp [account, stamp, accepted, takings, handoffs, ended])
        simpa [after, call] using hcall

end Serving

theorem pushes_passes {p : Pool α} {item : α} {cancelled : Bool} {o : Outcome α}
    (h : Pushes p item cancelled o) : Passes p o := by
  cases h with
  | accept runs opened room => exact Passes.enter ⟨p.pushes, item⟩ rfl rfl fun _ => rfl
  | turnAway | refuse | block =>
      exact Passes.still [] (List.append_nil _).symm (by simp) rfl fun _ => rfl

theorem hire_newcomers (p : Pool α) (count : Nat) :
    ∀ u ∈ (List.range count).map (fun i => (newWorker p.crews (p.hired + i) : Worker α)),
      u.batch = [] ∧ u.calling = [] := by
  intro u hu
  obtain ⟨i, -, rfl⟩ := List.mem_map.mp hu
  exact ⟨rfl, rfl⟩

theorem resumes_passes {p : Pool α} {b : Blocked α} {o : Outcome α} (h : Resumes p b o) :
    Passes p o := by
  cases h with
  | accept runs wanted opened room => exact Passes.enter b.entry rfl rfl fun _ => rfl
  | boost => exact Passes.still _ rfl (hire_newcomers p _) rfl fun _ => rfl
  | refuse | deny | breakOff =>
    exact Passes.still [] (List.append_nil _).symm (by simp) rfl fun _ => rfl

/-- Every step keeps the order of items in one of these ways. -/
theorem step_passes {p : Pool α} (h : Roster p) {label : Label α} {o : Outcome α}
    (ho : p.step label = some o) : Passes p o := by
  have hstill {q : Pool α} {events : List (Event α)} (workers : q.workers = p.workers)
      (buffer : q.buffer = p.buffer) (told : ∀ now, account (stamp now events) = {}) :
      Passes p (q, events) :=
    Passes.still [] (workers.trans (List.append_nil _).symm) (by simp) buffer told
  cases step_acts ho with
  | push item cancelled becomes => exact pushes_passes becomes
  | resume waits becomes => exact resumes_passes becomes
  | work here free works => exact works_passes h here (calling_nil free) works
  | addWorkers => exact Passes.still _ rfl (hire_newcomers p _) rfl fun _ => rfl
  | @finishLast w here batch last panicked calls ends =>
      have hbatch := h.batch_nil w (worker?_some here).1 batch last calls
      refine leave_passes h here rfl rfl hbatch fun now => ?_
      simp [account, stamp, accepted, takings, handoffs, ended, exit, Worker.calling, calls]
  | @finish w here batch calls =>
      have hbatch := h.batch_nil w (worker?_some here).1 batch false calls
      refine turn_passes (v := { w with stance := .ready }) h here rfl [] [] batch rfl ?_ ?_
        fun now => ?_
      · exact List.append_nil _
      · simp [Worker.calling, calls]
      · simp [account, stamp, accepted, takings, handoffs, ended, offer]
  | stopCrew crew =>
      obtain ⟨stopped, hstop⟩ := stopCrew_eq p crew
      rw [hstop]
      exact hstill rfl rfl fun _ => rfl
  | @expireBoost d | @endStay d =>
      obtain ⟨stopped, hstop⟩ := stopCrew_eq p d.crew
      rw [hstop]
      exact hstill rfl rfl fun _ => rfl
  | cancelPush | dropPush | addNobody | startBroke | dropStay | flushed | flushFailed | flushWaits
  | giveUpFlush | pollFlushed | pollAgain | cancelFlush | dropFlush | setMaxWorkers | manage
  | shutdown | terminate | tick => exact hstill rfl rfl fun _ => rfl

section Laws

variable {p : Pool α} {o : Outcome α}

/-- What is in the buffer and what enters it is what is taken out of it and what stays in it. -/
theorem Passes.front (h : Passes p o) (now : Nat) :
    p.buffered ++ accepted (stamp now o.2) = taken (stamp now o.2) ++ o.1.buffered := by
  cases h with
  | still newcomers workers fresh buffer told =>
      obtain ⟨haccepted, htakings, -, -⟩ := Account.mk.inj (told now)
      simp [haccepted, taken, htakings, buffered, buffer]
  | enter e workers buffer told =>
      obtain ⟨haccepted, htakings, -, -⟩ := Account.mk.inj (told now)
      simp [haccepted, taken, htakings, buffered, buffer]
  | serve w before remains after taken' handed ended here there same front batch calling told =>
      obtain ⟨haccepted, htakings, -, -⟩ := Account.mk.inj (told now)
      simp [haccepted, taken, htakings, buffered, front]

theorem heldBy_append (id : Nat) (us vs : List (Worker α)) :
    heldBy id (us ++ vs) = heldBy id us ++ heldBy id vs := by
  simp only [heldBy, List.filter_append, List.flatMap_append]

theorem heldBy_same {id : Nat} {us : List (Worker α)} (h : ∀ u ∈ us, u.id = id) :
    heldBy id us = us.flatMap Worker.batch := by
  rw [heldBy, List.filter_eq_self.mpr fun u hu => decide_eq_true (h u hu)]

theorem heldBy_other {id : Nat} {us : List (Worker α)} (h : ∀ u ∈ us, u.id ≠ id) :
    heldBy id us = [] := by
  rw [heldBy, List.filter_eq_nil_iff.mpr fun u hu => by simpa using h u hu]
  rfl

theorem Roster.others (h : Roster p) {before after : List (Worker α)} {w : Worker α}
    (here : p.workers = before ++ w :: after) :
    (∀ u ∈ before, u.id ≠ w.id) ∧ ∀ u ∈ after, u.id ≠ w.id := by
  have hnodup := h.ids_nodup
  rw [here, List.map_append, List.map_cons, List.nodup_middle, List.nodup_cons] at hnodup
  constructor
  · intro u hu heq
    exact hnodup.1 (List.mem_append_left _ (heq ▸ List.mem_map_of_mem hu))
  · intro u hu heq
    exact hnodup.1 (List.mem_append_right _ (heq ▸ List.mem_map_of_mem hu))

/-- What a worker holds and what it takes is what it hands over and what it holds then. -/
theorem Passes.own (hroster : Roster p) (h : Passes p o) (now id : Nat) :
    (heldBy id p.workers).map Entry.push ++ takenBy id (stamp now o.2) =
      (handedBy id (stamp now o.2)).map Entry.push ++ (heldBy id o.1.workers).map Entry.push := by
  cases h with
  | still newcomers workers fresh buffer told =>
      obtain ⟨-, htakings, hhandoffs, -⟩ := Account.mk.inj (told now)
      have hnone : heldBy id newcomers = [] := by
        refine List.flatMap_eq_nil_iff.mpr fun u hu => (fresh u (List.mem_of_mem_filter hu)).1
      rw [workers, heldBy_append, hnone]
      simp [takenBy, handedBy, htakings, hhandoffs]
  | enter e workers buffer told =>
      obtain ⟨-, htakings, hhandoffs, -⟩ := Account.mk.inj (told now)
      simp [takenBy, handedBy, htakings, hhandoffs, workers]
  | serve w before remains after taken handed ended here there same front batch calling told =>
      obtain ⟨-, htakings, hhandoffs, -⟩ := Account.mk.inj (told now)
      rw [here, there, ← List.singleton_append]
      simp only [heldBy_append]
      by_cases hid : w.id = id
      · obtain ⟨hbefore, hafter⟩ := hroster.others here
        subst hid
        have hhanded : handedBy w.id (stamp now o.2) = handed := by
          rw [handedBy, hhandoffs, offer]
          split <;> simp_all
        have htaken : takenBy w.id (stamp now o.2) = taken.map Entry.push := by
          rw [takenBy, htakings, List.filter_eq_self.mpr (by simp)]
          simp
        rw [heldBy_other hbefore, heldBy_other hafter, heldBy_same same, heldBy_same (by simp),
          hhanded, htaken]
        simpa using congrArg (List.map Entry.push) batch
      · have hhanded : handedBy id (stamp now o.2) = [] := by
          rw [handedBy, hhandoffs, offer]
          split <;> simp [hid]
        have htaken : takenBy id (stamp now o.2) = [] := by
          simp [takenBy, htakings, hid]
        have hremains : ∀ u ∈ remains, u.id ≠ id := fun u hu => (same u hu).trans_ne hid
        have hself : heldBy id [w] = [] := heldBy_other (by simpa using hid)
        rw [heldBy_other hremains, hself, hhanded, htaken]
        simp

/-- Where at most one worker is there, its account is that of the pool. -/
theorem Passes.alone (h : Passes p o) (single : p.workers.length ≤ 1) (now : Nat) :
    p.held ++ taken (stamp now o.2) = handedOver (stamp now o.2) ++ o.1.held ∧
      p.calls ++ handed (stamp now o.2) = ended (stamp now o.2) ++ o.1.calls := by
  cases h with
  | still newcomers workers fresh buffer told =>
      obtain ⟨-, htakings, hhandoffs, hended⟩ := Account.mk.inj (told now)
      have hheld : newcomers.flatMap Worker.batch = [] :=
        List.flatMap_eq_nil_iff.mpr fun u hu => (fresh u hu).1
      have hcalls : newcomers.flatMap Worker.calling = [] :=
        List.flatMap_eq_nil_iff.mpr fun u hu => (fresh u hu).2
      simp [held, batches, calls, workers, hheld, hcalls, handedOver, handed_eq_handoffs, taken,
        htakings, hhandoffs, hended]
  | enter e workers buffer told =>
      obtain ⟨-, htakings, hhandoffs, hended⟩ := Account.mk.inj (told now)
      simp [held, batches, calls, workers, handedOver, handed_eq_handoffs, taken, htakings,
        hhandoffs, hended]
  | serve w before remains after taken' handed' ended' here there same front batch calling told =>
      obtain ⟨-, htakings, hhandoffs, hended⟩ := Account.mk.inj (told now)
      obtain ⟨rfl, rfl⟩ : before = [] ∧ after = [] := by
        rw [here, List.length_append, List.length_cons] at single
        constructor <;> refine List.length_eq_zero_iff.mp ?_ <;> omega
      have hhanded : handed (stamp now o.2) = handed' := by
        rw [handed_eq_handoffs, hhandoffs, offer_flatMap]
      have htaken : taken (stamp now o.2) = taken'.map Entry.push := by
        simp [taken, htakings, Function.comp_def]
      rw [handedOver, hhanded, htaken, hended]
      constructor
      · simpa [held, batches, here, there] using congrArg (List.map Entry.push) batch
      · simpa [calls, here, there] using calling

end Laws

section Runs

variable {config : Config} {may : Pool α → Label α → Prop} {p : Pool α}
  {labels : List (Label α)} {history : List (Nat × Event α)}

theorem takings_append (h k : List (Nat × Event α)) : takings (h ++ k) = takings h ++ takings k :=
  List.filterMap_append ..

theorem handoffs_append (h k : List (Nat × Event α)) :
    handoffs (h ++ k) = handoffs h ++ handoffs k := List.filterMap_append ..

/-- The buffer is a queue: what has entered it has left it in the same order, or is in it. -/
theorem Run.accepted_eq (run : Run config may p labels history) :
    accepted history = taken history ++ p.buffered := by
  induction run with
  | start now => rfl
  | @next p q labels history label events run hmay hstep ih =>
      have hfront := (step_passes run.roster.1 hstep).front p.now
      calc accepted (history ++ stamp p.now events)
          = accepted history ++ accepted (stamp p.now events) := List.filterMap_append ..
        _ = taken history ++ (p.buffered ++ accepted (stamp p.now events)) := by
            rw [ih, List.append_assoc]
        _ = taken history ++ (taken (stamp p.now events) ++ q.buffered) := by rw [hfront]
        _ = taken (history ++ stamp p.now events) ++ q.buffered := by
            simp [taken, takings_append]

/-- A worker hands over what it takes in the order in which it takes it. -/
theorem Run.takenBy_eq (run : Run config may p labels history) (id : Nat) :
    takenBy id history =
      (handedBy id history).map Entry.push ++ (heldBy id p.workers).map Entry.push := by
  induction run with
  | start now => rfl
  | @next p q labels history label events run hmay hstep ih =>
      have hown := (step_passes run.roster.1 hstep).own run.roster.1 p.now id
      have htaken : takenBy id (history ++ stamp p.now events) =
          takenBy id history ++ takenBy id (stamp p.now events) := by
        simp [takenBy, takings_append]
      have hhanded : handedBy id (history ++ stamp p.now events) =
          handedBy id history ++ handedBy id (stamp p.now events) := by
        simp [handedBy, handoffs_append]
      rw [htaken, hhanded, ih, List.map_append, List.append_assoc, List.append_assoc, hown]

/-- Workers that are there one at a time hand over what they take in the order in which they take
it, and their calls end in the order in which they are made. -/
theorem Run.taken_eq (run : Run config may p labels history)
    (single : ∀ q label, may q label → q.workers.length ≤ 1) :
    taken history = handedOver history ++ p.held ∧ handed history = ended history ++ p.calls := by
  induction run with
  | start now => exact ⟨rfl, rfl⟩
  | @next p q labels history label events run hmay hstep ih =>
      obtain ⟨hheld, hcalls⟩ :=
        (step_passes run.roster.1 hstep).alone (single p label hmay) p.now
      obtain ⟨htaken, hhanded⟩ := ih
      constructor
      · calc taken (history ++ stamp p.now events)
            = taken history ++ taken (stamp p.now events) := by simp [taken, takings_append]
          _ = handedOver history ++ (handedOver (stamp p.now events) ++ q.held) := by
              rw [htaken, List.append_assoc, hheld]
          _ = handedOver (history ++ stamp p.now events) ++ q.held := by simp [handedOver, handed]
      · calc handed (history ++ stamp p.now events)
            = handed history ++ handed (stamp p.now events) := List.flatMap_append ..
          _ = ended history ++ (ended (stamp p.now events) ++ q.calls) := by
              rw [hhanded, List.append_assoc, hcalls]
          _ = ended (history ++ stamp p.now events) ++ q.calls := by simp [ended]

end Runs

end Coordination.Pool
