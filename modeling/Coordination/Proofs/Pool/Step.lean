import Coordination.Proofs.Pool.Roster

/-!
What the steps of a pool do, and when. A new push is refused, finds room or has to wait; a waiting
one is refused, gets its room, or asks for a boost once its watch is due, which may break it off;
and a worker that is not inside a handler call does one of seven things, by the token of its crew,
the buffer and its timer.
Each of these is told once, with all that has to hold for it, and `Acts` tells all steps: what is
said of every step is said by its cases, without opening a step again.
-/

namespace Coordination.Pool

variable {α : Type}

def counted (p : Pool α) : Pool α := { p with pushes := p.pushes + 1, pending := p.pending + 1 }

/-- What becomes of a new push at once. -/
inductive Pushes (p : Pool α) (item : α) (cancelled : Bool) : Outcome α → Prop where
  | turnAway (halted : p.terminated = true) :
    Pushes p item cancelled ({ p with pushes := p.pushes + 1 }, [.refused p.pushes .closed])
  | refuse (runs : p.terminated = false) (error : Error)
    (why : p.closed = true ∧ error = .closed ∨ cancelled = true ∧ error = .cancelled) :
    Pushes p item cancelled (p.counted.refuse p.pushes error)
  | accept (runs : p.terminated = false) (opened : p.closed = false) (room : p.hasRoom = true) :
    Pushes p item cancelled (p.counted.accept ⟨p.pushes, item⟩)
  | block (runs : p.terminated = false) (opened : p.closed = false) (full : p.hasRoom = false)
    (wanted : cancelled = false) (watch : Option Watch)
    (watches : watch = if p.boost.watchesPush then
      some ⟨p.boost.block, p.now + p.boost.block.nanos⟩ else none) :
    Pushes p item cancelled (p.counted.block ⟨⟨p.pushes, item⟩, watch, false⟩)

theorem push_pushes (p : Pool α) (item : α) (cancelled : Bool) :
    Pushes p item cancelled (p.push item cancelled) := by
  unfold push
  dsimp only
  split
  · rename_i hover
    exact Pushes.turnAway hover
  · rename_i hruns
    have hruns := Bool.eq_false_of_not_eq_true hruns
    split
    · rename_i hwatches
      unfold pushWatching
      split
      · rename_i hclosed
        exact Pushes.refuse hruns .closed (Or.inl ⟨hclosed, rfl⟩)
      · rename_i hopened
        have hopened := Bool.eq_false_of_not_eq_true hopened
        split
        · rename_i hroom
          exact Pushes.accept hruns hopened hroom
        · rename_i hfull
          split
          · rename_i hcancelled
            exact Pushes.refuse hruns .cancelled (Or.inr ⟨hcancelled, rfl⟩)
          · rename_i hwanted
            exact Pushes.block hruns hopened (Bool.eq_false_of_not_eq_true hfull)
              (Bool.eq_false_of_not_eq_true hwanted) _ (if_pos hwatches).symm
    · rename_i hplain
      unfold pushPlain
      split
      · rename_i hcancelled
        exact Pushes.refuse hruns .cancelled (Or.inr ⟨hcancelled, rfl⟩)
      · rename_i hwanted
        split
        · rename_i hclosed
          exact Pushes.refuse hruns .closed (Or.inl ⟨hclosed, rfl⟩)
        · rename_i hopened
          have hopened := Bool.eq_false_of_not_eq_true hopened
          split
          · rename_i hroom
            exact Pushes.accept hruns hopened hroom
          · rename_i hfull
            exact Pushes.block hruns hopened (Bool.eq_false_of_not_eq_true hfull)
              (Bool.eq_false_of_not_eq_true hwanted) none (if_neg hplain).symm

/-- What becomes of a waiting push that goes on. -/
inductive Resumes (p : Pool α) (b : Blocked α) : Outcome α → Prop where
  | refuse (error : Error)
    (why : (p.terminated = true ∨ b.cancelled = false ∧ p.closed = true) ∧ error = .closed ∨
      p.terminated = false ∧ b.cancelled = true ∧ error = .cancelled) :
    Resumes p b ((p.unblock b.entry.push).refuse b.entry.push error)
  | accept (runs : p.terminated = false) (wanted : b.cancelled = false) (opened : p.closed = false)
    (room : p.hasRoom = true) : Resumes p b ((p.unblock b.entry.push).accept b.entry)
  | deny (runs : p.terminated = false) (wanted : b.cancelled = false) (opened : p.closed = false)
    (full : p.hasRoom = false) {w : Watch} (watch : b.watch = some w) (late : w.due ≤ p.now)
    (denied : ∀ number lifetime, (p.boost.blocked w.observed).2 ≠ .boost number lifetime)
    (whole : (p.boost.blocked w.observed).2 ≠ .overflow) :
    Resumes p b (p.unwatch b.entry.push,
      [.asked b.entry.push w.observed (p.boost.blocked w.observed).2])
  | boost (runs : p.terminated = false) (wanted : b.cancelled = false) (opened : p.closed = false)
    (full : p.hasRoom = false) {w : Watch} (watch : b.watch = some w) (late : w.due ≤ p.now)
    {number : Nat} {lifetime : Duration}
    (granted : (p.boost.blocked w.observed).2 = .boost number lifetime) :
    Resumes p b (after [.asked b.entry.push w.observed (.boost number lifetime)]
      (hire
        { p.unwatch b.entry.push with
          boost := (p.boost.blocked w.observed).1
          boosts := p.boosts ++ [⟨p.crews, p.now + lifetime.nanos⟩] }
        number (some lifetime)))
  | breakOff (runs : p.terminated = false) (wanted : b.cancelled = false)
    (opened : p.closed = false) (full : p.hasRoom = false) {w : Watch} (watch : b.watch = some w)
    (late : w.due ≤ p.now) (overflow : (p.boost.blocked w.observed).2 = .overflow) :
    Resumes p b ({ p.unblock b.entry.push with boost := (p.boost.blocked w.observed).1 },
      [.pushBroke b.entry.push])

/-- A push that goes has no watch to lose. -/
theorem unblock_unwatch (p : Pool α) (push : Nat) :
    (p.unwatch push).unblock push = p.unblock push := by
  have hsame : (p.blocked.map fun b => if b.entry.push = push then { b with watch := none } else b
      ).filter (fun b => b.entry.push ≠ push) = p.blocked.filter fun b => b.entry.push ≠ push := by
    induction p.blocked with
    | nil => rfl
    | cons b rest ih => by_cases h : b.entry.push = push <;> simp_all
  simp only [unblock, unwatch, hsame]

theorem resume_resumes {p : Pool α} {push : Nat} {o : Outcome α} (h : p.resume push = some o) :
    ∃ b, p.blocked? push = some b ∧ b.entry.push = push ∧ Resumes p b o := by
  unfold Pool.resume at h
  split at h
  · cases h
  · rename_i b hb
    obtain rfl : b.entry.push = push := by simpa using List.find?_some hb
    refine ⟨b, hb, rfl, ?_⟩
    split at h
    · rename_i hover
      obtain rfl := Option.some.inj h
      exact Resumes.refuse .closed (Or.inl ⟨Or.inl hover, rfl⟩)
    · rename_i hruns
      have hruns := Bool.eq_false_of_not_eq_true hruns
      split at h
      · rename_i hcancelled
        obtain rfl := Option.some.inj h
        exact Resumes.refuse .cancelled (Or.inr ⟨hruns, hcancelled, rfl⟩)
      · rename_i hwanted
        have hwanted := Bool.eq_false_of_not_eq_true hwanted
        split at h
        · rename_i hclosed
          obtain rfl := Option.some.inj h
          exact Resumes.refuse .closed (Or.inl ⟨Or.inr ⟨hwanted, hclosed⟩, rfl⟩)
        · rename_i hopened
          have hopened := Bool.eq_false_of_not_eq_true hopened
          split at h
          · rename_i hroom
            obtain rfl := Option.some.inj h
            exact Resumes.accept hruns hwanted hopened hroom
          · rename_i hfull
            have hfull := Bool.eq_false_of_not_eq_true hfull
            split at h
            · rename_i w hwatch
              split at h
              · rename_i hlate
                have hboost : (p.unwatch b.entry.push).boost = p.boost := rfl
                simp only [ask, hboost] at h
                split at h
                · rename_i number lifetime hgranted
                  obtain rfl := Option.some.inj h
                  rw [hgranted]
                  exact Resumes.boost hruns hwanted hopened hfull hwatch hlate hgranted
                · rename_i hoverflow
                  obtain rfl := Option.some.inj h
                  rw [unblock_unwatch]
                  exact Resumes.breakOff hruns hwanted hopened hfull hwatch hlate hoverflow
                · rename_i hdenied hwhole
                  obtain rfl := Option.some.inj h
                  exact Resumes.deny hruns hwanted hopened hfull hwatch hlate hdenied hwhole
              · cases h
            · cases h

/-- What a worker that is not inside a handler call does, and when. -/
inductive Works (p : Pool α) (w : Worker α) : Outcome α → Prop where
  | noRoom (holds : w.batch = []) (unfit : p.batchFits = false) : Works p w (p.exit w)
  | drain (stopped : p.crewStopped w.crew = true) (halted : p.terminated = true) :
    Works p w (p.drain w)
  | stop (stopped : p.crewStopped w.crew = true) (runs : p.terminated = false) :
    Works p w (p.callLast w w.batch)
  | take (goes : p.crewStopped w.crew = false) {e : Entry α} {rest : List (Entry α)}
    (front : p.buffer = e :: rest) : Works p w (p.take w e rest)
  | finish (goes : p.crewStopped w.crew = false) (empty : p.buffer = [])
    (closed : p.closed = true) : Works p w (p.callLast w w.batch)
  | wait (goes : p.crewStopped w.crew = false) (empty : p.buffer = []) (opened : p.closed = false)
    (ready : w.stance = .ready) :
    Works p w (p.update { w with stance := .idle (p.now + w.wait) }, [.waits w.id w.wait])
  | wake (goes : p.crewStopped w.crew = false) (empty : p.buffer = []) (opened : p.closed = false)
    {due : Nat} (waits : w.stance = .idle due) (late : due ≤ p.now) : Works p w (p.idleFlush w)

theorem look_works {p : Pool α} {w : Worker α} {o : Outcome α} (h : p.look w = some o) :
    Works p w o := by
  unfold look at h
  split at h
  · rename_i hlost
    obtain ⟨hholds, hunfit⟩ : w.batch = [] ∧ p.batchFits = false := by simpa using hlost
    obtain rfl := Option.some.inj h
    exact Works.noRoom hholds hunfit
  split at h
  · rename_i hstopped
    split at h
    · rename_i hover
      obtain rfl := Option.some.inj h
      exact Works.drain hstopped hover
    · rename_i hruns
      obtain rfl := Option.some.inj h
      exact Works.stop hstopped (Bool.eq_false_of_not_eq_true hruns)
  · rename_i hgoes
    have hgoes := Bool.eq_false_of_not_eq_true hgoes
    split at h
    · rename_i e rest hfront
      obtain rfl := Option.some.inj h
      exact Works.take hgoes hfront
    · rename_i hempty
      split at h
      · rename_i hclosed
        obtain rfl := Option.some.inj h
        exact Works.finish hgoes hempty hclosed
      · rename_i hopened
        have hopened := Bool.eq_false_of_not_eq_true hopened
        unfold Pool.rest at h
        split at h
        · rename_i hready
          obtain rfl := Option.some.inj h
          exact Works.wait hgoes hempty hopened hready
        · rename_i due hwaits
          split at h
          · rename_i hlate
            obtain rfl := Option.some.inj h
            exact Works.wake hgoes hempty hopened hwaits hlate
          · cases h
        · cases h

/-- A worker tells of the items that it takes, of its waits and calls, and of its end. -/
def Event.OfWorker : Event α → Prop
  | .took _ _ | .waits _ _ | .waited _ | .called _ _ _ | .exited _ _ => True
  | _ => False

theorem callLast_told (p : Pool α) (w : Worker α) (batch : List (Entry α)) :
    ∀ e ∈ (p.callLast w batch).2, e.OfWorker := by
  unfold callLast
  split <;> simp [exit, call, Event.OfWorker]

theorem works_told {p : Pool α} {w : Worker α} {o : Outcome α} (h : Works p w o) :
    ∀ e ∈ o.2, e.OfWorker := by
  cases h with
  | drain stopped halted =>
      intro e he
      rcases List.mem_append.mp he with htook | hlast
      · obtain ⟨entry, -, rfl⟩ := List.mem_map.mp htook
        trivial
      · exact callLast_told _ w _ e hlast
  | noRoom holds unfit => simp [exit, Event.OfWorker]
  | stop stopped runs => exact callLast_told p w w.batch
  | finish goes empty closed => exact callLast_told p w w.batch
  | take goes front =>
      unfold take
      dsimp only
      split <;> simp [after, call, Event.OfWorker]
  | wait goes empty opened ready => simp [Event.OfWorker]
  | wake goes empty opened waits late =>
      unfold idleFlush
      dsimp only
      split <;> simp [after, call, Event.OfWorker]

theorem work_works {p : Pool α} {id : Nat} {o : Outcome α} (h : p.work id = some o) :
    ∃ w, p.worker? id = some w ∧ w.id = id ∧ (∀ batch last, w.stance ≠ .handling batch last) ∧
      Works p w o := by
  unfold work at h
  split at h
  · cases h
  · rename_i w hw
    split at h
    · cases h
    · rename_i hfree
      exact ⟨w, hw, (worker?_some hw).2, hfree, look_works h⟩

/-- A crew that stops is noted as stopped, and that is all. -/
theorem stopCrew_eq (p : Pool α) (crew : Nat) :
    ∃ stopped, p.stopCrew crew = { p with stopped } := by
  unfold stopCrew
  split
  · exact ⟨p.stopped, rfl⟩
  · exact ⟨crew :: p.stopped, rfl⟩

/-- What a step of a pool does, and when it can be taken. -/
inductive Acts (p : Pool α) : Label α → Outcome α → Prop where
  | push (item : α) (cancelled : Bool) {o : Outcome α} (becomes : Pushes p item cancelled o) :
    Acts p (.push item cancelled) o
  | resume {b : Blocked α} (waits : p.blocked? b.entry.push = some b) {o : Outcome α}
    (becomes : Resumes p b o) : Acts p (.resume b.entry.push) o
  | cancelPush (push : Nat) : Acts p (.cancelPush push) (p.cancelPush push, [])
  | dropPush (push : Nat) : Acts p (.dropPush push) (p.unblock push, [])
  | addNobody (stay : Option Duration) :
    Acts p (.addWorkers 0 stay) ({ p with crews := p.crews + 1 }, [])
  | addWorkers {count : Nat} (stay : Option Duration) (some_come : 0 < count)
    (countable : p.boost.countable count = true) {stays : List Deadline}
    (limited : stays = p.stays ++ stay.toList.map fun d => ⟨p.crews, p.now + d.nanos⟩) :
    Acts p (.addWorkers count stay)
      (hire { p with boost := p.boost.started count, stays } count stay)
  | startBroke {count : Nat} (stay : Option Duration) (some_come : 0 < count)
    (uncountable : p.boost.countable count = false) :
    Acts p (.addWorkers count stay) (p, [.startBroke count])
  | stopCrew (crew : Nat) : Acts p (.stopCrew crew) (p.stopCrew crew, [])
  | work {w : Worker α} (here : p.worker? w.id = some w)
    (free : ∀ batch last, w.stance ≠ .handling batch last) {o : Outcome α} (works : Works p w o) :
    Acts p (.work w.id) o
  | finishLast {w : Worker α} (here : p.worker? w.id = some w) {batch : List (Entry α)}
    {last panicked : Bool} (calls : w.stance = .handling batch last)
    (ends : last = true ∨ panicked = true) :
    Acts p (.finish w.id panicked)
      (after [.handled w.id batch panicked]
        (exit { p with pending := p.pending - batch.length } w))
  | finish {w : Worker α} (here : p.worker? w.id = some w) {batch : List (Entry α)}
    (calls : w.stance = .handling batch false) :
    Acts p (.finish w.id false)
      (update { p with pending := p.pending - batch.length } { w with stance := .ready },
        [.handled w.id batch false])
  | expireBoost {d : Deadline} (known : p.boosts.find? (fun e => e.crew = d.crew) = some d)
    (due : p.terminated = true ∨ d.due ≤ p.now) :
    Acts p (.expireBoost d.crew)
      ({ p.stopCrew d.crew with boosts := p.boosts.erase d, boost := p.boost.expired },
        [.boostExpired d.crew])
  | dropStay {d : Deadline} (known : p.stays.find? (fun e => e.crew = d.crew) = some d)
    (stopped : p.crewStopped d.crew = true) :
    Acts p (.endStay d.crew) ({ p with stays := p.stays.erase d }, [])
  | endStay {d : Deadline} (known : p.stays.find? (fun e => e.crew = d.crew) = some d)
    (goes : p.crewStopped d.crew = false) (due : d.due ≤ p.now) :
    Acts p (.endStay d.crew) ({ p.stopCrew d.crew with stays := p.stays.erase d }, [])
  | flushed (cancelled : Bool) (none_pending : p.pending ≤ 0) :
    Acts p (.flush cancelled)
      ({ p with flushCalls := p.flushCalls + 1 }, [.flushed p.flushCalls])
  | flushFailed (some_pending : 0 < p.pending) :
    Acts p (.flush true) ({ p with flushCalls := p.flushCalls + 1 }, [.flushFailed p.flushCalls])
  | flushWaits (some_pending : 0 < p.pending) :
    Acts p (.flush false)
      ({ p with
          flushCalls := p.flushCalls + 1
          flushes := p.flushes ++ [⟨p.flushCalls, p.now + flushInterval, false⟩] },
        [.flushWaits p.flushCalls])
  | giveUpFlush {f : Flush} (waits : p.flush? f.call = some f) (cancelled : f.cancelled = true) :
    Acts p (.giveUpFlush f.call) (p.endFlush f.call, [.flushFailed f.call])
  | pollFlushed {f : Flush} (waits : p.flush? f.call = some f) (due : f.due ≤ p.now)
    (none_pending : p.pending ≤ 0) :
    Acts p (.pollFlush f.call) (p.endFlush f.call, [.flushed f.call])
  | pollAgain {f : Flush} (waits : p.flush? f.call = some f) (due : f.due ≤ p.now)
    (some_pending : 0 < p.pending) :
    Acts p (.pollFlush f.call)
      ({ p with flushes := p.flushes.map fun g =>
          if g.call = f.call then { g with due := p.now + flushInterval } else g }, [])
  | cancelFlush (call : Nat) : Acts p (.cancelFlush call) (p.cancelFlush call, [])
  | dropFlush (call : Nat) : Acts p (.dropFlush call) (p.endFlush call, [])
  | setMaxWorkers (limit : Option Nat) :
    Acts p (.setMaxWorkers limit) ({ p with boost := p.boost.setMaxWorkers limit }, [])
  | manage (number : Nat) (limit : Option Nat) (lifetime : Duration) :
    Acts p (.manage number limit lifetime)
      ({ p with boost := p.boost.manage number limit lifetime }, [])
  | shutdown : Acts p .shutdown ({ p with closed := true }, [])
  | terminate : Acts p .terminate ({ p with closed := true, terminated := true }, [])
  | tick {now : Nat} (later : p.now ≤ now) : Acts p (.tick now) ({ p with now }, [])

theorem addWorkers_acts (p : Pool α) (count : Nat) (stay : Option Duration) :
    Acts p (.addWorkers count stay) (p.addWorkers count stay) := by
  unfold Pool.addWorkers
  split
  · rename_i hnone
    obtain rfl := hnone
    exact Acts.addNobody stay
  · rename_i hsome
    split
    · rename_i hcountable
      refine Acts.addWorkers stay (Nat.pos_of_ne_zero hsome) hcountable ?_
      cases stay with
      | none => exact (List.append_nil _).symm
      | some d => rfl
    · rename_i hover
      exact Acts.startBroke stay (Nat.pos_of_ne_zero hsome) (Bool.eq_false_of_not_eq_true hover)

theorem finish_acts {p : Pool α} {id : Nat} {panicked : Bool} {o : Outcome α}
    (h : p.finish id panicked = some o) : Acts p (.finish id panicked) o := by
  unfold Pool.finish at h
  split at h
  · cases h
  · rename_i w hw
    obtain ⟨-, rfl⟩ := worker?_some hw
    split at h
    · rename_i batch last hstance
      dsimp only at h
      split at h
      · rename_i hends
        obtain rfl := Option.some.inj h
        exact Acts.finishLast hw hstance hends
      · rename_i hgoes
        obtain rfl := Option.some.inj h
        obtain ⟨rfl, rfl⟩ : last = false ∧ panicked = false := by simpa using hgoes
        exact Acts.finish hw hstance
    · cases h

theorem expireBoost_acts {p : Pool α} {crew : Nat} {o : Outcome α}
    (h : p.expireBoost crew = some o) : Acts p (.expireBoost crew) o := by
  unfold Pool.expireBoost at h
  split at h
  · cases h
  · rename_i d hd
    obtain rfl : d.crew = crew := by simpa using List.find?_some hd
    split at h
    · rename_i hdue
      obtain rfl := Option.some.inj h
      exact Acts.expireBoost hd hdue
    · cases h

theorem endStay_acts {p : Pool α} {crew : Nat} {o : Outcome α}
    (h : p.endStay crew = some o) : Acts p (.endStay crew) o := by
  unfold Pool.endStay at h
  split at h
  · cases h
  · rename_i d hd
    obtain rfl : d.crew = crew := by simpa using List.find?_some hd
    split at h
    · rename_i hstopped
      obtain rfl := Option.some.inj h
      exact Acts.dropStay hd hstopped
    · rename_i hgoes
      split at h
      · rename_i hdue
        obtain rfl := Option.some.inj h
        exact Acts.endStay hd (Bool.eq_false_of_not_eq_true hgoes) hdue
      · cases h

theorem flush_acts (p : Pool α) (cancelled : Bool) :
    Acts p (.flush cancelled) (p.flush cancelled) := by
  unfold Pool.flush
  dsimp only
  split
  · rename_i hnone
    exact Acts.flushed cancelled hnone
  · rename_i hsome
    split
    · rename_i hcancelled
      rw [hcancelled]
      exact Acts.flushFailed (not_le.mp hsome)
    · rename_i hwanted
      rw [Bool.eq_false_of_not_eq_true hwanted]
      exact Acts.flushWaits (not_le.mp hsome)

theorem giveUpFlush_acts {p : Pool α} {call : Nat} {o : Outcome α}
    (h : p.giveUpFlush call = some o) : Acts p (.giveUpFlush call) o := by
  unfold Pool.giveUpFlush at h
  split at h
  · cases h
  · rename_i f hf
    obtain rfl : f.call = call := by simpa using List.find?_some hf
    split at h
    · rename_i hcancelled
      obtain rfl := Option.some.inj h
      exact Acts.giveUpFlush hf hcancelled
    · cases h

theorem pollFlush_acts {p : Pool α} {call : Nat} {o : Outcome α}
    (h : p.pollFlush call = some o) : Acts p (.pollFlush call) o := by
  unfold Pool.pollFlush at h
  split at h
  · cases h
  · rename_i f hf
    obtain rfl : f.call = call := by simpa using List.find?_some hf
    split at h
    · rename_i hdue
      split at h
      · rename_i hnone
        obtain rfl := Option.some.inj h
        exact Acts.pollFlushed hf hdue hnone
      · rename_i hsome
        obtain rfl := Option.some.inj h
        exact Acts.pollAgain hf hdue (not_le.mp hsome)
    · cases h

/-- Every step that can be taken is one of these. -/
theorem step_acts {p : Pool α} {label : Label α} {o : Outcome α} (h : p.step label = some o) :
    Acts p label o := by
  cases label with
  | push item cancelled =>
      obtain rfl := Option.some.inj h
      exact Acts.push item cancelled (push_pushes p item cancelled)
  | resume push =>
      obtain ⟨b, hb, rfl, hresumes⟩ := resume_resumes h
      exact Acts.resume hb hresumes
  | work id =>
      obtain ⟨w, hw, rfl, hfree, hworks⟩ := work_works h
      exact Acts.work hw hfree hworks
  | addWorkers count stay =>
      obtain rfl := Option.some.inj h
      exact addWorkers_acts p count stay
  | finish id panicked => exact finish_acts h
  | expireBoost crew => exact expireBoost_acts h
  | endStay crew => exact endStay_acts h
  | giveUpFlush call => exact giveUpFlush_acts h
  | pollFlush call => exact pollFlush_acts h
  | flush cancelled =>
      obtain rfl := Option.some.inj h
      exact flush_acts p cancelled
  | tick now =>
      simp only [step] at h
      split at h
      · rename_i hlater
        obtain rfl := Option.some.inj h
        exact Acts.tick hlater
      · cases h
  | cancelPush | dropPush | stopCrew | cancelFlush | dropFlush | setMaxWorkers | manage | shutdown
  | terminate =>
      obtain rfl := Option.some.inj h
      constructor

end Coordination.Pool
