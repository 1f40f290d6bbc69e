import Coordination.Proofs.Pool.Step

/-!
Every step of a pool is a move of its flow. The steps of workers are read off from the smaller
operations that they are made of; the steps that concern crews, timers, flushes and the boost
controller move nothing. A law about flows that holds at the start and that every move keeps
therefore holds in every run.
-/

namespace Coordination.Pool

variable {α : Type}

/-- A step that is a move: the workers are still told apart, the configuration stays, and the flow
moves. -/
structure Moved (p : Pool α) (label : Label α) (o : Outcome α) : Prop where
  roster : Roster o.1
  config : o.1.config = p.config
  moves : ∀ now, Moves p.config.capacity label p.flow (tidings (stamp now o.2)) o.1.flow

/-- Nothing happens to items when only other things change. -/
theorem Moved.stay {p : Pool α} (h : Roster p) {label : Label α} (hlabel : label.item? = none)
    {o : Outcome α} (hworkers : o.1.workers = p.workers) (hhired : o.1.hired = p.hired)
    (hconfig : o.1.config = p.config) (hflow : o.1.flow = p.flow)
    (hquiet : ∀ now, tidings (stamp now o.2) = {}) : Moved p label o :=
  ⟨h.congr hworkers hhired, hconfig, fun now =>
    (Moves.stay label hlabel).cast (hquiet now) hflow⟩

/-- What a step of one worker does: `taken` comes off the front of the buffer, `handed` is handed
over, and nobody's push is touched. -/
structure Worked (p : Pool α) (o : Outcome α) (taken handed : List (Entry α)) : Prop where
  roster : Roster o.1
  config : o.1.config = p.config
  pushes : o.1.pushes = p.pushes
  blocked : o.1.blocked = p.blocked
  pending : o.1.pending = p.pending
  front : p.buffer = taken ++ o.1.buffer
  balance : (p.batches : Multiset (Entry α)) + taken = o.1.batches + handed
  calls : (o.1.calls : Multiset (Entry α)) = p.calls + handed
  told : ∀ now, tidings (stamp now o.2) = { handed }

theorem Worked.moved {p : Pool α} {o : Outcome α} {taken handed : List (Entry α)}
    (h : Worked p o taken handed) (id : Nat) : Moved p (.work id) o := by
  refine ⟨h.roster, h.config, fun now => ?_⟩
  refine (Moves.work id (f := p.flow) h.front h.balance).cast (h.told now) ?_
  simp only [flow, h.pushes, h.blocked, h.pending, h.calls]

/-- Events that tell nothing about items make no difference in front. -/
theorem Worked.after {p : Pool α} {o : Outcome α} {taken handed : List (Entry α)}
    (h : Worked p o taken handed) {events : List (Event α)}
    (hquiet : ∀ now, tidings (stamp now events) = {}) :
    Worked p (after events o) taken handed := by
  refine { h with told := ?_ }
  intro now
  change tidings (stamp now (events ++ o.2)) = _
  rw [stamp_append, tidings_append, hquiet, h.told]
  rfl

theorem took_quiet (id now : Nat) (entries : List (Entry α)) :
    tidings (stamp now (entries.map fun e => (Event.took id e.push : Event α))) = {} := by
  induction entries with
  | nil => rfl
  | cons e rest ih =>
      change tidings ((now, (Event.took id e.push : Event α)) :: stamp now _) = _
      rw [tidings_cons, ih]
      rfl

section Worker

variable {p : Pool α} {w v : Worker α} {rest : List (Entry α)}

/-- A worker keeps what it takes. -/
theorem update_worked (h : Roster p) (hw : p.worker? v.id = some w) (hcalling : w.calling = [])
    {taken : List (Entry α)} (hfront : p.buffer = taken ++ rest)
    (hbatch : v.batch = w.batch ++ taken)
    (hstance : v.stance = .ready ∨ ∃ due, v.stance = .idle due) {events : List (Event α)}
    (hquiet : ∀ now, tidings (stamp now events) = {}) :
    Worked p (({ p with buffer := rest } : Pool α).update v, events) taken [] := by
  have hroster : Roster ({ p with buffer := rest } : Pool α) := h.congr rfl rfl
  have hready : v.calling = [] := by
    rcases hstance with hs | ⟨due, hs⟩ <;> simp [Worker.calling, hs]
  have hbalance : ((({ p with buffer := rest } : Pool α).update v).batches : Multiset (Entry α)) +
      w.batch = p.batches + v.batch := hroster.batches_update hw
  have hcalls : ((({ p with buffer := rest } : Pool α).update v).calls : Multiset (Entry α)) +
      w.calling = p.calls + v.calling := hroster.calls_update hw
  constructor
  · refine hroster.update hw ?_
    intro batch last hs
    rcases hstance with hr | ⟨due, hr⟩ <;> simp [hr] at hs
  · rfl
  · rfl
  · rfl
  · rfl
  · exact hfront
  · rw [hbatch, ← Multiset.coe_add, ← add_assoc, add_right_comm] at hbalance
    simpa using (add_right_cancel hbalance).symm
  · rw [hready, hcalling] at hcalls
    simpa using hcalls
  · exact hquiet

/-- A worker hands over all that it has. -/
theorem call_worked (h : Roster p) (hw : p.worker? v.id = some w) (hcalling : w.calling = [])
    (taken : List (Entry α)) (hfront : p.buffer = taken ++ rest) (last : Bool) :
    Worked p (({ p with buffer := rest } : Pool α).call v (w.batch ++ taken) last) taken
      (w.batch ++ taken) := by
  have hroster : Roster ({ p with buffer := rest } : Pool α) := h.congr rfl rfl
  let u : Worker α := { v with batch := [], stance := .handling (w.batch ++ taken) last }
  have hu : ({ p with buffer := rest } : Pool α).worker? u.id = some w := hw
  have hbalance : ((({ p with buffer := rest } : Pool α).update u).batches : Multiset (Entry α)) +
      w.batch = p.batches + u.batch := hroster.batches_update hu
  have hcalls : ((({ p with buffer := rest } : Pool α).update u).calls : Multiset (Entry α)) +
      w.calling = p.calls + u.calling := hroster.calls_update hu
  constructor
  · exact hroster.update hu fun _ _ _ => rfl
  · rfl
  · rfl
  · rfl
  · rfl
  · exact hfront
  · change (p.batches : Multiset (Entry α)) + taken =
      (({ p with buffer := rest } : Pool α).update u).batches + (w.batch ++ taken : List (Entry α))
    rw [← Multiset.coe_add, ← add_assoc, hbalance]
    simp [u]
  · rw [hcalling] at hcalls
    simpa [u, Worker.calling, Pool.call] using hcalls
  · intro now
    exact tidings_called now v.id (w.batch ++ taken) last

/-- A worker that holds nothing goes away. -/
theorem exit_worked (h : Roster p) (hw : p.worker? v.id = some w) (hcalling : w.calling = [])
    (hbatch : w.batch = []) : Worked p (p.exit v) [] [] := by
  have hbalance := h.batches_exit hw
  have hcalls := h.calls_exit hw
  rw [hbatch] at hbalance
  rw [hcalling] at hcalls
  constructor
  · exact h.exit v
  · rfl
  · rfl
  · rfl
  · rfl
  · rfl
  · simpa using hbalance.symm
  · simpa using hcalls
  · intro now
    rfl

theorem callLast_worked (h : Roster p) (hw : p.worker? v.id = some w) (hcalling : w.calling = [])
    (taken : List (Entry α)) (hfront : p.buffer = taken ++ rest) :
    Worked p (({ p with buffer := rest } : Pool α).callLast v (w.batch ++ taken)) taken
      (w.batch ++ taken) := by
  unfold callLast
  split
  · rename_i hempty
    obtain ⟨hbatch, rfl⟩ : w.batch = [] ∧ taken = [] := by simpa using hempty
    obtain rfl : p.buffer = rest := by simpa using hfront
    simpa [hbatch] using exit_worked h hw hcalling hbatch
  · exact call_worked h hw hcalling taken hfront true

theorem drain_worked (h : Roster p) (hw : p.worker? w.id = some w) (hcalling : w.calling = []) :
    Worked p (p.drain w) p.buffer (w.batch ++ p.buffer) :=
  (callLast_worked h hw hcalling p.buffer (List.append_nil _).symm).after fun now =>
    took_quiet w.id now p.buffer

theorem take_worked (h : Roster p) (hw : p.worker? w.id = some w) (hcalling : w.calling = [])
    {e : Entry α} (hbuffer : p.buffer = e :: rest) :
    ∃ handed, Worked p (p.take w e rest) [e] handed := by
  have htook (now : Nat) : tidings (stamp now [(Event.took w.id e.push : Event α)]) = {} := rfl
  unfold take
  dsimp only
  split
  · exact ⟨_, (call_worked (v := { w with wait := firstWait }) h hw hcalling [e] hbuffer
      false).after htook⟩
  · exact ⟨_, update_worked (v := { w with batch := w.batch ++ [e], stance := .ready }) h hw
      hcalling hbuffer rfl (Or.inl rfl) htook⟩

theorem idleFlush_worked (h : Roster p) (hw : p.worker? w.id = some w)
    (hcalling : w.calling = []) : ∃ handed, Worked p (p.idleFlush w) [] handed := by
  have hwaited (now : Nat) : tidings (stamp now [(Event.waited w.id : Event α)]) = {} := rfl
  unfold idleFlush
  dsimp only
  split
  · exact ⟨_, update_worked (v := { w with wait := nextWait, stance := .ready }) h hw hcalling
      rfl (List.append_nil _).symm (Or.inl rfl) hwaited⟩
  · have hcall := call_worked (v := { w with wait := nextWait }) h hw hcalling [] rfl false
    rw [List.append_nil] at hcall
    exact ⟨_, hcall.after hwaited⟩

theorem works_worked (h : Roster p) (hw : p.worker? w.id = some w) (hcalling : w.calling = [])
    {o : Outcome α} (hworks : Works p w o) : ∃ taken handed, Worked p o taken handed := by
  have hlast : Worked p (p.callLast w w.batch) [] w.batch := by
    simpa using callLast_worked h hw hcalling [] rfl
  cases hworks with
  | noRoom holds unfit => exact ⟨_, _, exit_worked h hw hcalling holds⟩
  | drain stopped halted => exact ⟨_, _, drain_worked h hw hcalling⟩
  | stop stopped runs => exact ⟨_, _, hlast⟩
  | take goes front => exact ⟨_, take_worked h hw hcalling front⟩
  | finish goes empty closed => exact ⟨_, _, hlast⟩
  | wait goes empty opened ready =>
      exact ⟨_, _, update_worked (v := { w with stance := .idle (p.now + w.wait) }) h hw hcalling
        rfl (List.append_nil _).symm (Or.inr ⟨_, rfl⟩) fun _ => rfl⟩
  | wake goes empty opened waits late => exact ⟨_, idleFlush_worked h hw hcalling⟩

end Worker

theorem calling_nil {w : Worker α} (h : ∀ batch last, w.stance ≠ .handling batch last) :
    w.calling = [] := by
  unfold Worker.calling
  split
  · rename_i batch last hs
    exact absurd hs (h batch last)
  · rfl

section Finish

variable {p : Pool α} {w : Worker α} {batch : List (Entry α)} {last : Bool}

/-- The items of a handler call that ends are taken out of the count. Inside a call a worker holds
nothing, so nothing is lost when it goes. -/
theorem finishLast_moved (h : Roster p) (hw : p.worker? w.id = some w)
    (hcalls : w.stance = .handling batch last) (panicked : Bool) :
    Moved p (.finish w.id panicked) (after [.handled w.id batch panicked]
      (exit { p with pending := p.pending - batch.length } w)) := by
  have hbatch : w.batch = [] := h.batch_nil w (worker?_some hw).1 batch last hcalls
  have hcalling : w.calling = batch := by simp [Worker.calling, hcalls]
  have hroster : Roster ({ p with pending := p.pending - batch.length } : Pool α) :=
    h.congr rfl rfl
  have hbatches := h.batches_exit hw
  have hbalance := h.calls_exit hw
  rw [hbatch, Multiset.coe_nil, add_zero] at hbatches
  rw [hcalling] at hbalance
  refine ⟨hroster.exit w, rfl, fun now => ?_⟩
  refine (Moves.finish w.id panicked (f := p.flow) hbalance.symm).cast ?_ ?_
  · change tidings ((now, _) :: stamp now [Event.exited w.id w.crew]) = _
    rw [tidings_cons, tidings_handled]
    exact Tidings.append_empty _
  · simp only [flow, ← hbatches]
    rfl

/-- The worker may also go on, without items. -/
theorem finish_moved (h : Roster p) (hw : p.worker? w.id = some w)
    (hcalls : w.stance = .handling batch last) (panicked : Bool) :
    Moved p (.finish w.id panicked)
      (update { p with pending := p.pending - batch.length } { w with stance := .ready },
        [.handled w.id batch panicked]) := by
  have hcalling : w.calling = batch := by simp [Worker.calling, hcalls]
  have hroster : Roster ({ p with pending := p.pending - batch.length } : Pool α) :=
    h.congr rfl rfl
  have hw' : p.worker? ({ w with stance := .ready } : Worker α).id = some w := hw
  have hkept := h.batches_update hw'
  have hbatches : ((p.update { w with stance := .ready }).batches : Multiset (Entry α)) =
      p.batches := add_right_cancel hkept
  have hbalance := h.calls_update hw'
  have hready : ({ w with stance := .ready } : Worker α).calling = [] := rfl
  rw [hcalling, hready, Multiset.coe_nil, add_zero] at hbalance
  refine ⟨hroster.update hw' ?_, rfl, fun now => ?_⟩
  · intro _ _ hs
    cases hs
  · refine (Moves.finish w.id panicked (f := p.flow) hbalance.symm).cast ?_ ?_
    · exact tidings_handled now w.id batch panicked
    · simp only [flow, ← hbatches]
      rfl

end Finish

theorem blocked?_some {p : Pool α} {push : Nat} {b : Blocked α} (h : p.blocked? push = some b) :
    b ∈ p.blocked ∧ b.entry.push = push := mem_of_find?_key h

theorem unblock_waiting (p : Pool α) (push : Nat) :
    (p.unblock push).blocked.map Blocked.entry = others push (p.blocked.map Blocked.entry) := by
  simp only [unblock, others, List.filter_map]
  rfl

/-- A waiting push keeps its entry whatever becomes of its watch and its caller. -/
theorem map_entry {blocked : List (Blocked α)} {change : Blocked α → Blocked α}
    (h : ∀ b, (change b).entry = b.entry) :
    (blocked.map change).map Blocked.entry = blocked.map Blocked.entry := by
  simp [h]

/-- What is counted first and refused then has been counted for nothing. -/
theorem pushes_moved {p : Pool α} (h : Roster p) {item : α} {cancelled : Bool} {o : Outcome α}
    (hpushes : Pushes p item cancelled o) : Moved p (.push item cancelled) o := by
  cases hpushes with
  | turnAway halted => exact ⟨h.congr rfl rfl, rfl, fun now => Moves.turnAway item cancelled⟩
  | refuse runs error why =>
      refine ⟨h.congr rfl rfl, rfl, fun now => ?_⟩
      refine (Moves.turnAway item cancelled).cast rfl ?_
      simp [flow, refuse, counted, batches, calls]
  | accept runs opened room =>
      refine ⟨h.congr rfl rfl, rfl, fun now => ?_⟩
      exact Moves.accept item cancelled (of_decide_eq_true room)
  | block runs opened full wanted watch watches =>
      refine ⟨h.congr rfl rfl, rfl, fun now => ?_⟩
      refine (Moves.wait item cancelled).cast rfl ?_
      simp [flow, block, counted, batches, calls]

/-- New workers bring nothing. -/
theorem Moved.hire {p : Pool α} (h : Roster p) (q : Pool α) (events : List (Event α))
    (count : Nat) (lifetime : Option Duration) {label : Label α} (hlabel : label.item? = none)
    (hworkers : q.workers = p.workers) (hhired : q.hired = p.hired) (hconfig : q.config = p.config)
    (hflow : q.flow = p.flow) (hquiet : ∀ now, tidings (stamp now events) = {}) :
    Moved p label (after events (q.hire count lifetime)) := by
  have hroster : Roster q := h.congr hworkers hhired
  refine ⟨hroster.hire count lifetime, hconfig, fun now => ?_⟩
  refine (Moves.stay label hlabel).cast ?_ ?_
  · change tidings (stamp now (events ++ [.crewStarted q.crews count lifetime])) = _
    rw [stamp_append, tidings_append, hquiet]
    rfl
  · obtain ⟨hbatches, hcalls⟩ := hire_batches q count lifetime
    rw [← hflow]
    change Flow.mk _ _ _ ((q.hire count lifetime).1.batches : Multiset (Entry α))
      ((q.hire count lifetime).1.calls : Multiset (Entry α)) _ = _
    rw [hbatches, hcalls]
    rfl

theorem unwatch_flow (p : Pool α) (push : Nat) : (p.unwatch push).flow = p.flow := by
  have hwaiting : (p.unwatch push).blocked.map Blocked.entry = p.blocked.map Blocked.entry := by
    refine map_entry fun b => ?_
    split <;> rfl
  simp only [flow, hwaiting]
  rfl

/-- A waiting push that goes on fails, gets its room, or goes on waiting. -/
theorem resumes_moved {p : Pool α} (h : Roster p) {b : Blocked α} (hmem : b ∈ p.blocked)
    {o : Outcome α} (hresumes : Resumes p b o) : Moved p (.resume b.entry.push) o := by
  have hwaits : b.entry ∈ p.flow.waiting := List.mem_map_of_mem hmem
  cases hresumes with
  | refuse error why =>
      refine ⟨h.congr rfl rfl, rfl, fun now => ?_⟩
      refine (Moves.giveUp hwaits).cast rfl ?_
      change Flow.mk _ ((p.unblock b.entry.push).blocked.map Blocked.entry) _ _ _ _ = _
      rw [unblock_waiting]
      rfl
  | accept runs wanted opened room =>
      refine ⟨h.congr rfl rfl, rfl, fun now => ?_⟩
      refine (Moves.enter hwaits (of_decide_eq_true room)).cast rfl ?_
      change Flow.mk _ ((p.unblock b.entry.push).blocked.map Blocked.entry) _ _ _ _ = _
      rw [unblock_waiting]
      rfl
  | deny runs wanted opened full watch late denied whole =>
      exact Moved.stay h rfl rfl rfl rfl (unwatch_flow p _) fun _ => rfl
  | boost runs wanted opened full watch late granted =>
      exact Moved.hire h _ _ _ _ rfl rfl rfl rfl (unwatch_flow p _) fun _ => rfl
  | breakOff runs wanted opened full watch late overflow =>
      refine ⟨h.congr rfl rfl, rfl, fun now => (Moves.drop b.entry.push (Or.inr rfl)).cast rfl ?_⟩
      change Flow.mk _ ((p.unblock b.entry.push).blocked.map Blocked.entry) _ _ _ _ = _
      rw [unblock_waiting]
      rfl

/-- Every step of a pool is a move of its flow. -/
theorem step_moved {p : Pool α} (h : Roster p) {label : Label α} {o : Outcome α}
    (ho : p.step label = some o) : Moved p label o := by
  cases step_acts ho with
  | push item cancelled becomes => exact pushes_moved h becomes
  | resume waits becomes => exact resumes_moved h (blocked?_some waits).1 becomes
  | @work w here free o works =>
      obtain ⟨taken, handed, hworked⟩ := works_worked h here (calling_nil free) works
      exact hworked.moved w.id
  | finishLast here calls ends => exact finishLast_moved h here calls _
  | finish here calls => exact finish_moved h here calls false
  | dropPush n =>
      refine ⟨h.congr rfl rfl, rfl, fun now => (Moves.drop n (Or.inl rfl)).cast rfl ?_⟩
      change Flow.mk _ ((p.unblock n).blocked.map Blocked.entry) _ _ _ _ = _
      rw [unblock_waiting]
      rfl
  | cancelPush n =>
      have hwaiting : (p.cancelPush n).blocked.map Blocked.entry = p.blocked.map Blocked.entry := by
        refine map_entry fun b => ?_
        split <;> rfl
      refine Moved.stay h rfl rfl rfl rfl ?_ fun _ => rfl
      simp only [flow, hwaiting]
      rfl
  | addWorkers stay some_come countable limited =>
      exact Moved.hire h _ [] _ stay rfl rfl rfl rfl rfl fun _ => rfl
  | stopCrew crew =>
      obtain ⟨stopped, hstop⟩ := stopCrew_eq p crew
      rw [hstop]
      exact Moved.stay h rfl rfl rfl rfl rfl fun _ => rfl
  | @expireBoost d known due =>
      obtain ⟨stopped, hstop⟩ := stopCrew_eq p d.crew
      rw [hstop]
      exact Moved.stay h rfl rfl rfl rfl rfl fun _ => rfl
  | @endStay d known goes due =>
      obtain ⟨stopped, hstop⟩ := stopCrew_eq p d.crew
      rw [hstop]
      exact Moved.stay h rfl rfl rfl rfl rfl fun _ => rfl
  | addNobody | startBroke | dropStay | flushed | flushFailed | flushWaits | giveUpFlush
  | pollFlushed | pollAgain | cancelFlush | dropFlush | setMaxWorkers | manage | shutdown
  | terminate | tick =>
      exact Moved.stay h rfl rfl rfl rfl rfl fun _ => rfl

/-- A law about flows, steps and tidings holds in every run if it holds before anything has been
pushed and every move keeps it. `May` is what is known of the steps that a run takes. -/
theorem Run.law_of {config : Config} {may : Pool α → Label α → Prop} (May : Label α → Prop)
    (hmay : ∀ p label, may p label → May label)
    (Law : List (Label α) → Tidings α → Flow α → Prop) (hstart : Law [] {} Flow.start)
    (hmove : ∀ labels t f label u g, Law labels t f → May label →
      Moves config.capacity label f u g → Law (labels ++ [label]) (t ++ u) g)
    {p : Pool α} {labels : List (Label α)} {history : List (Nat × Event α)}
    (run : Run config may p labels history) :
    Roster p ∧ p.config = config ∧ Law labels (tidings history) p.flow := by
  induction run with
  | start now itemBytes => exact ⟨roster_new config now itemBytes, rfl, hstart⟩
  | @next p q labels history label events run may hstep ih =>
      obtain ⟨hroster, hconfig, hlaw⟩ := ih
      have hmoved := step_moved hroster hstep
      have hmoves := hmoved.moves p.now
      rw [hconfig] at hmoves
      refine ⟨hmoved.roster, hmoved.config.trans hconfig, ?_⟩
      rw [tidings_append]
      exact hmove _ _ _ _ _ _ hlaw (hmay p label may) hmoves

/-- A law that every move keeps, also those of abandoned pushes. -/
theorem Run.law {config : Config} {may : Pool α → Label α → Prop}
    (Law : List (Label α) → Tidings α → Flow α → Prop) (hstart : Law [] {} Flow.start)
    (hmove : ∀ labels t f label u g, Law labels t f →
      Moves config.capacity label f u g → Law (labels ++ [label]) (t ++ u) g)
    {p : Pool α} {labels : List (Label α)} {history : List (Nat × Event α)}
    (run : Run config may p labels history) : Law labels (tidings history) p.flow :=
  (run.law_of (fun _ => True) (fun _ _ _ => trivial) Law hstart
    fun labels t f label u g hlaw _ moves => hmove labels t f label u g hlaw moves).2.2

theorem Run.roster {config : Config} {may : Pool α → Label α → Prop} {p : Pool α}
    {labels : List (Label α)} {history : List (Nat × Event α)}
    (run : Run config may p labels history) : Roster p ∧ p.config = config := by
  obtain ⟨hroster, hconfig, -⟩ := run.law_of (fun _ => True) (fun _ _ _ => trivial)
    (fun _ _ _ => True) trivial fun _ _ _ _ _ _ _ _ _ => trivial
  exact ⟨hroster, hconfig⟩

end Coordination.Pool
