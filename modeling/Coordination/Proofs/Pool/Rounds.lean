import Coordination.Proofs.Pool.Motion
import Coordination.Proofs.Pool.Staff

/-!
The pool as one of its workers sees it. To a worker each step of the pool is a round of its own, or
it is its start or its end, or it passes the worker by: then the step tells nothing of the worker
and leaves it as it was. What holds of a worker over a whole run is shown along its rounds.
-/

namespace Coordination.Pool

variable {α : Type}

def Event.worker? : Event α → Option Nat
  | .took worker _ | .waits worker _ | .waited worker | .called worker _ _ | .handled worker _ _
  | .exited worker _ => some worker
  | _ => none

def SilentOf (id : Nat) (events : List (Event α)) : Prop := ∀ e ∈ events, e.worker? ≠ some id

theorem SilentOf.append_stamp {id now : Nat} {history : List (Nat × Event α)}
    {events : List (Event α)} (before : SilentOf id (history.map Prod.snd))
    (now_silent : SilentOf id events) :
    SilentOf id ((history ++ stamp now events).map Prod.snd) := by
  have hevents : (stamp now events).map Prod.snd = events := by
    rw [stamp, List.map_map]
    exact List.map_id events
  rw [List.map_append, hevents]
  exact List.forall_mem_append.mpr ⟨before, now_silent⟩

/-- One round of a worker that goes on: what it tells of itself, and how it goes on. -/
inductive Round (p : Pool α) (w : Worker α) : List (Event α) → Worker α → Prop where
  | gather (free : ∀ batch last, w.stance ≠ .handling batch last) (e : Entry α)
    (few : w.batch.length + 1 < p.config.fullBatch) :
    Round p w [.took w.id e.push] { w with batch := w.batch ++ [e], stance := .ready }
  | fill (free : ∀ batch last, w.stance ≠ .handling batch last) (e : Entry α)
    (full : p.config.fullBatch ≤ w.batch.length + 1) :
    Round p w [.took w.id e.push, .called w.id (w.batch ++ [e]) false]
      { w with batch := [], wait := firstWait, stance := .handling (w.batch ++ [e]) false }
  | pause (ready : w.stance = .ready) :
    Round p w [.waits w.id w.wait] { w with stance := .idle (p.now + w.wait) }
  | lapse {due : Nat} (idle : w.stance = .idle due) (late : due ≤ p.now)
      (none_held : w.batch = []) :
    Round p w [.waited w.id] { w with wait := nextWait, stance := .ready }
  | handOver {due : Nat} (idle : w.stance = .idle due) (late : due ≤ p.now)
    (some_held : w.batch ≠ []) :
    Round p w [.waited w.id, .called w.id w.batch false]
      { w with batch := [], wait := nextWait, stance := .handling w.batch false }
  | last (free : ∀ batch last, w.stance ≠ .handling batch last)
    (ended : p.crewStopped w.crew = true ∨ p.closed = true ∧ p.buffer = [])
    (taken : List (Entry α)) :
    Round p w ((taken.map fun e => .took w.id e.push) ++ [.called w.id (w.batch ++ taken) true])
      { w with batch := [], stance := .handling (w.batch ++ taken) true }
  | back {batch : List (Entry α)} (calls : w.stance = .handling batch false)
    (none_held : w.batch = []) :
    Round p w [.handled w.id batch false] { w with stance := .ready }

/-- What a step is to the worker of a number, if there is one. -/
inductive Fares (p : Pool α) (id : Nat) (o : Outcome α) : Prop where
  /-- It passes the worker by. -/
  | same (worker : o.1.worker? id = p.worker? id) (silent : SilentOf id o.2)
  /-- The number is given to a new worker. -/
  | comes (crew : Nat) (fresh : p.hired ≤ id) (there : o.1.worker? id = some (newWorker crew id))
    (silent : SilentOf id o.2)
  /-- A round of the worker, which takes no time. -/
  | round (w u : Worker α) (here : p.worker? id = some w) (there : o.1.worker? id = some u)
    (now : o.1.now = p.now) (round : Round p w o.2 u)
  /-- The worker goes; it holds nothing. -/
  | goes (w : Worker α) (here : p.worker? id = some w) (there : o.1.worker? id = none)
    (none_held : w.batch = [])
    (told : o.2 = [.exited id w.crew] ∨
      ∃ batch panicked, o.2 = [.handled id batch panicked, .exited id w.crew])

section Lookup

variable {p q : Pool α} {v : Worker α}

theorem update_worker? (p : Pool α) (v : Worker α) (id : Nat) :
    (p.update v).worker? id = (p.worker? id).map fun u => if u.id = v.id then v else u := by
  have hkey : ((fun w : Worker α => decide (w.id = id)) ∘ fun u => if u.id = v.id then v else u) =
      fun u => decide (u.id = id) := by
    funext u
    dsimp only [Function.comp]
    split
    · rename_i hsame
      rw [hsame]
    · rfl
  rw [worker?, update, List.find?_map, hkey]
  rfl

theorem exit_worker?_self (p : Pool α) (v : Worker α) : (p.exit v).1.worker? v.id = none := by
  refine List.find?_eq_none.mpr fun u hu => ?_
  simpa using (List.mem_filter.mp hu).2

theorem exit_worker?_other (p : Pool α) (v : Worker α) {id : Nat} (other : v.id ≠ id) :
    (p.exit v).1.worker? id = p.worker? id := by
  refine find?_filter_of fun u _ hu => ?_
  have hid : u.id = id := of_decide_eq_true hu
  exact decide_eq_true fun hsame => other (hsame.symm.trans hid)

/-- Who is there stays there when others come, and the newcomers are at their start. -/
theorem hire_worker? (p : Pool α) (count : Nat) (lifetime : Option Duration) (id : Nat) :
    (p.hire count lifetime).1.worker? id = p.worker? id ∨
      p.worker? id = none ∧ p.hired ≤ id ∧
        (p.hire count lifetime).1.worker? id = some (newWorker p.crews id) := by
  have hsplit : (p.hire count lifetime).1.worker? id = (p.worker? id).or
      (((List.range count).map fun i => newWorker p.crews (p.hired + i)).find?
        fun w => w.id = id) := List.find?_append
  cases hhere : p.worker? id with
  | some w => exact Or.inl (by rw [hsplit, hhere, Option.some_or])
  | none =>
      rw [hsplit, hhere, Option.none_or]
      cases hnew : ((List.range count).map fun i => newWorker p.crews (p.hired + i)).find?
          fun w : Worker α => w.id = id with
      | none => exact Or.inl rfl
      | some w =>
          obtain ⟨hmem, hid⟩ := mem_of_find?_key hnew
          obtain ⟨i, -, rfl⟩ := List.mem_map.mp hmem
          obtain rfl : p.hired + i = id := hid
          exact Or.inr ⟨rfl, Nat.le_add_right _ _, rfl⟩

end Lookup

section Round

variable {p : Pool α} {w u : Worker α} {events : List (Event α)}

theorem Round.id_eq (h : Round p w events u) : u.id = w.id := by cases h <;> rfl

/-- A round tells of its worker only. -/
theorem Round.told (h : Round p w events u) : ∀ e ∈ events, e.worker? = some w.id := by
  cases h with
  | last free ended taken =>
      intro e he
      rcases List.mem_append.mp he with htook | hcalled
      · obtain ⟨entry, -, rfl⟩ := List.mem_map.mp htook
        rfl
      · rw [List.mem_singleton.mp hcalled]
        rfl
  | gather | fill | pause | lapse | handOver | back => simp [Event.worker?]

/-- After its last call a worker has no further round. -/
theorem Round.stays (h : Round p w events u) : ¬ w.Leaving := by
  rintro ⟨batch, hleaving⟩
  cases h with
  | gather free | fill free | last free => exact free batch true hleaving
  | pause ready => cases ready.symm.trans hleaving
  | lapse idle | handOver idle => cases idle.symm.trans hleaving
  | back calls => cases calls.symm.trans hleaving

end Round

section Step

variable {p q : Pool α} {w v : Worker α} {events : List (Event α)}

theorem silentOf_of_told (told : ∀ e ∈ events, e.worker? = some w.id) {id : Nat}
    (other : w.id ≠ id) : SilentOf id events := by
  intro e he hsame
  exact other (Option.some.inj ((told e he).symm.trans hsame))

/-- The round of one worker passes all others by. -/
theorem Round.fares (h : Round p w events v) (here : p.worker? w.id = some w)
    (workers : q.workers = p.workers) (now : q.now = p.now) (id : Nat) :
    Fares p id (q.update v, events) := by
  have hlookup : (q.update v).worker? id = (p.worker? id).map fun u =>
      if u.id = w.id then v else u := by
    rw [update_worker?, worker?, workers, h.id_eq]
    rfl
  by_cases hid : w.id = id
  · subst hid
    refine Fares.round w v here ?_ now h
    rw [hlookup, here, Option.map_some, if_pos rfl]
  · refine Fares.same ?_ (silentOf_of_told h.told hid)
    rw [hlookup]
    cases hother : p.worker? id with
    | none => rfl
    | some u =>
        have hu : u.id ≠ w.id := fun hsame => hid (hsame.symm.trans (worker?_some hother).2)
        rw [Option.map_some, if_neg hu]

theorem leave_fares (here : p.worker? w.id = some w) (workers : q.workers = p.workers)
    (none_held : w.batch = [])
    (told : events = [.exited w.id w.crew] ∨
      ∃ batch panicked, events = [.handled w.id batch panicked, .exited w.id w.crew]) (id : Nat) :
    Fares p id ((q.exit w).1, events) := by
  by_cases hid : w.id = id
  · subst hid
    exact Fares.goes w here (exit_worker?_self q w) none_held told
  · refine Fares.same ?_ (silentOf_of_told ?_ hid)
    · rw [exit_worker?_other q w hid, worker?, workers]
      rfl
    · rcases told with rfl | ⟨batch, panicked, rfl⟩ <;> simp [Event.worker?]

/-- A worker that ends hands over what it has and what it has just taken. -/
theorem callLast_fares (here : p.worker? w.id = some w)
    (free : ∀ batch last, w.stance ≠ .handling batch last)
    (ended : p.crewStopped w.crew = true ∨ p.closed = true ∧ p.buffer = [])
    (taken rest : List (Entry α)) (id : Nat) :
    Fares p id (after (taken.map fun e => .took w.id e.push)
      (({ p with buffer := rest } : Pool α).callLast w (w.batch ++ taken))) := by
  unfold callLast
  split
  · rename_i hempty
    obtain ⟨hbatch, rfl⟩ : w.batch = [] ∧ taken = [] := by simpa using hempty
    exact leave_fares (q := { p with buffer := rest }) here rfl hbatch (Or.inl rfl) id
  · exact (Round.last free ended taken).fares (q := { p with buffer := rest }) here rfl rfl id

theorem works_fares (here : p.worker? w.id = some w)
    (free : ∀ batch last, w.stance ≠ .handling batch last) {o : Outcome α} (works : Works p w o)
    (id : Nat) : Fares p id o := by
  have hlast (ended : p.crewStopped w.crew = true ∨ p.closed = true ∧ p.buffer = []) :
      Fares p id (p.callLast w w.batch) := by
    simpa [after] using callLast_fares here free ended [] p.buffer id
  cases works with
  | noRoom holds unfit => exact leave_fares here rfl holds (Or.inl rfl) id
  | drain stopped halted => exact callLast_fares here free (Or.inl stopped) p.buffer [] id
  | stop stopped runs => exact hlast (Or.inl stopped)
  | finish goes empty closed => exact hlast (Or.inr ⟨closed, empty⟩)
  | @take goes e rest front =>
      unfold take
      dsimp only
      split
      · rename_i hfull
        rw [List.length_append, List.length_singleton] at hfull
        exact (Round.fill free e hfull).fares (q := { p with buffer := rest }) here rfl rfl id
      · rename_i hfew
        rw [List.length_append, List.length_singleton, not_le] at hfew
        exact (Round.gather free e hfew).fares (q := { p with buffer := rest }) here rfl rfl id
  | wait goes empty opened ready => exact (Round.pause ready).fares here rfl rfl id
  | wake goes empty opened waits late =>
      unfold idleFlush
      dsimp only
      split
      · rename_i hempty
        exact (Round.lapse waits late (List.isEmpty_iff.mp hempty)).fares here rfl rfl id
      · rename_i hsome
        exact (Round.handOver waits late (by simpa using hsome)).fares here rfl rfl id

theorem hire_fares (workers : q.workers = p.workers) (hired : q.hired = p.hired) (count : Nat)
    (lifetime : Option Duration) (front : List (Event α)) {id : Nat} (silent : SilentOf id front) :
    Fares p id (after front (q.hire count lifetime)) := by
  have hquiet : SilentOf id (after front (q.hire count lifetime)).2 := by
    intro e he
    rcases List.mem_append.mp he with hfront | hstarted
    · exact silent e hfront
    · rw [List.mem_singleton.mp hstarted]
      exact nofun
  have hsame : q.worker? id = p.worker? id := by rw [worker?, workers]; rfl
  rcases hire_worker? q count lifetime id with hkept | ⟨-, hfresh, hnew⟩
  · exact Fares.same (hkept.trans hsame) hquiet
  · exact Fares.comes q.crews (hired ▸ hfresh) hnew hquiet

theorem pushes_fares {item : α} {cancelled : Bool} {o : Outcome α} (h : Pushes p item cancelled o)
    (id : Nat) : Fares p id o := by
  cases h <;> exact Fares.same rfl (by simp [SilentOf, refuse, accept, block, Event.worker?])

theorem resumes_fares {b : Blocked α} {o : Outcome α} (h : Resumes p b o) (id : Nat) :
    Fares p id o := by
  cases h with
  | boost => exact hire_fares (by rfl) (by rfl) _ _ _ (by simp [SilentOf, Event.worker?])
  | refuse | accept | deny | breakOff =>
      exact Fares.same rfl (by simp [SilentOf, refuse, accept, Event.worker?])

/-- Every step is one of these to the worker of any number. -/
theorem step_fares (h : Roster p) {label : Label α} {o : Outcome α} (ho : p.step label = some o)
    (id : Nat) : Fares p id o := by
  cases step_acts ho with
  | push item cancelled becomes => exact pushes_fares becomes id
  | resume waits becomes => exact resumes_fares becomes id
  | work here free works => exact works_fares here free works id
  | @addWorkers count stay some_come countable stays limited =>
      exact hire_fares (p := p) (q := { p with boost := p.boost.started count, stays }) rfl rfl
        count stay [] (by simp [SilentOf])
  | @finishLast w here batch last panicked calls ends =>
      have hbatch := h.batch_nil w (worker?_some here).1 batch last calls
      exact leave_fares (q := { p with pending := p.pending - batch.length }) here rfl hbatch
        (Or.inr ⟨batch, panicked, rfl⟩) id
  | @finish w here batch calls =>
      have hbatch := h.batch_nil w (worker?_some here).1 batch false calls
      exact (Round.back calls hbatch).fares (q := { p with pending := p.pending - batch.length })
        here rfl rfl id
  | stopCrew crew =>
      obtain ⟨stopped, hstop⟩ := stopCrew_eq p crew
      rw [hstop]
      exact Fares.same rfl (by simp [SilentOf])
  | @expireBoost d | @endStay d =>
      obtain ⟨stopped, hstop⟩ := stopCrew_eq p d.crew
      rw [hstop]
      exact Fares.same rfl (by simp [SilentOf, Event.worker?])
  | cancelPush | dropPush | addNobody | startBroke | dropStay | flushed | flushFailed | flushWaits
  | giveUpFlush | pollFlushed | pollAgain | cancelFlush | dropFlush | setMaxWorkers | manage
  | shutdown | terminate | tick => exact Fares.same rfl (by simp [SilentOf, Event.worker?])

theorem works_hired {o : Outcome α} (works : Works p w o) : o.1.hired = p.hired := by
  have hcall (q : Pool α) (batch : List (Entry α)) : (q.callLast w batch).1.hired = q.hired := by
    unfold callLast
    split <;> rfl
  cases works with
  | noRoom holds unfit => rfl
  | drain stopped halted => exact hcall { p with buffer := [] } (w.batch ++ p.buffer)
  | stop stopped runs => exact hcall p w.batch
  | finish goes empty closed => exact hcall p w.batch
  | take goes front =>
      unfold take
      dsimp only
      split <;> rfl
  | wait goes empty opened ready => rfl
  | wake goes empty opened waits late =>
      unfold idleFlush
      dsimp only
      split <;> rfl

/-- A number that has been given stays given. -/
theorem step_hired_le {label : Label α} {o : Outcome α} (ho : p.step label = some o) :
    p.hired ≤ o.1.hired := by
  cases step_acts ho with
  | push item cancelled becomes => cases becomes <;> exact Nat.le_refl p.hired
  | resume waits becomes =>
      cases becomes with
      | boost => exact Nat.le_add_right _ _
      | refuse | accept | deny | breakOff => exact Nat.le_refl p.hired
  | addWorkers => exact Nat.le_add_right _ _
  | work here free works => exact (works_hired works).ge
  | stopCrew crew =>
      obtain ⟨stopped, hstop⟩ := stopCrew_eq p crew
      rw [hstop]
  | @expireBoost d | @endStay d =>
      obtain ⟨stopped, hstop⟩ := stopCrew_eq p d.crew
      rw [hstop]
  | finishLast | finish | cancelPush | dropPush | addNobody | startBroke | dropStay | flushed
  | flushFailed | flushWaits | giveUpFlush | pollFlushed | pollAgain | cancelFlush | dropFlush
  | setMaxWorkers | manage | shutdown | terminate | tick => exact Nat.le_refl p.hired

end Step

/-- Nothing is told of a worker before it comes. -/
theorem Run.silent_of_fresh {config : Config} {may : Pool α → Label α → Prop} {p : Pool α}
    {labels : List (Label α)} {history : List (Nat × Event α)}
    (run : Run config may p labels history) {id : Nat} (fresh : p.hired ≤ id) :
    SilentOf id (history.map Prod.snd) := by
  induction run with
  | start now => simp [SilentOf]
  | @next p q labels history label events run hmay hstep ih =>
      have hbefore : p.hired ≤ id := (step_hired_le hstep).trans fresh
      have absent (w : Worker α) (here : p.worker? id = some w) : False := by
        obtain ⟨hmem, hid⟩ := worker?_some here
        have hlt := run.roster.1.id_lt w hmem
        omega
      refine (ih hbefore).append_stamp ?_
      cases step_fares run.roster.1 hstep id with
      | same worker silent => exact silent
      | comes crew new there silent => exact silent
      | round w u here => exact (absent w here).elim
      | goes w here => exact (absent w here).elim

end Coordination.Pool
