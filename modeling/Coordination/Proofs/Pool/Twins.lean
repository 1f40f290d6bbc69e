import Coordination.Proofs.Pool.Closing
import Coordination.Proofs.Pool.Staff

/-!
Pools that differ in what no worker can tell. A crew that has come and has no worker left is gone
for good: whether its token has fired, and whether its stay has ended, is asked by nobody any more.
Two pools that are the same but for that take the same steps, tell the same of them and stay so.
-/

namespace Coordination.Pool

variable {α : Type}

/-- The same pool with other tokens fired and other stays to end. -/
def marked (p : Pool α) (stopped : List Nat) (stays : List Deadline) : Pool α :=
  { p with stopped, stays }

/-- The same for an outcome. -/
def mark (stopped : List Nat) (stays : List Deadline) (o : Outcome α) : Outcome α :=
  (o.1.marked stopped stays, o.2)

section Marked

variable (p : Pool α) (s : List Nat) (t : List Deadline)

theorem push_marked (item : α) (cancelled : Bool) :
    (p.marked s t).push item cancelled = mark s t (p.push item cancelled) := by
  simp only [push, pushWatching, pushPlain, apply_ite (mark s t)]
  rfl

theorem ask_marked (n : Nat) (observed : Duration) :
    (p.marked s t).ask n observed = mark s t (p.ask n observed) := by
  have hboost : (p.marked s t).boost = p.boost := rfl
  unfold ask
  rw [hboost]
  obtain ⟨boost, decision⟩ := p.boost.blocked observed
  cases decision <;> rfl

theorem resume_marked (n : Nat) : (p.marked s t).resume n = (p.resume n).map (mark s t) := by
  have hfind : (p.marked s t).blocked? n = p.blocked? n := rfl
  have hask (observed : Duration) : ((p.marked s t).unwatch n).ask n observed =
      mark s t ((p.unwatch n).ask n observed) := ask_marked (p.unwatch n) s t n observed
  simp only [Pool.resume, hfind, hask]
  cases p.blocked? n with
  | none => rfl
  | some b =>
      dsimp only
      cases b.watch <;> simp only [apply_ite (Option.map (mark s t))] <;> rfl

theorem callLast_marked (w : Worker α) (batch : List (Entry α)) :
    (p.marked s t).callLast w batch = mark s t (p.callLast w batch) := by
  simp only [callLast, apply_ite (mark s t)]
  rfl

theorem take_marked (w : Worker α) (e : Entry α) (rest : List (Entry α)) :
    (p.marked s t).take w e rest = mark s t (p.take w e rest) := by
  simp only [take, apply_ite (mark s t)]
  rfl

theorem idleFlush_marked (w : Worker α) :
    (p.marked s t).idleFlush w = mark s t (p.idleFlush w) := by
  simp only [idleFlush, apply_ite (mark s t)]
  rfl

theorem drain_marked (w : Worker α) : (p.marked s t).drain w = mark s t (p.drain w) := by
  have hlast := callLast_marked { p with buffer := [] } s t w (w.batch ++ p.buffer)
  exact congrArg (after (p.buffer.map fun e => .took w.id e.push)) hlast

theorem rest_marked (w : Worker α) : (p.marked s t).rest w = (p.rest w).map (mark s t) := by
  unfold rest
  cases w.stance with
  | idle due =>
      simp only [idleFlush_marked, apply_ite (Option.map (mark s t))]
      rfl
  | ready | handling => rfl

/-- A worker asks for the token of its own crew only. -/
theorem work_marked (h : ∀ w ∈ p.workers, (p.marked s t).crewStopped w.crew = p.crewStopped w.crew)
    (id : Nat) : (p.marked s t).work id = (p.work id).map (mark s t) := by
  have hfind : (p.marked s t).worker? id = p.worker? id := rfl
  unfold work
  rw [hfind]
  cases hw : p.worker? id with
  | none => rfl
  | some w =>
      have hlook : (p.marked s t).look w = (p.look w).map (mark s t) := by
        have hbuffer : (p.marked s t).buffer = p.buffer := rfl
        have hfits : (p.marked s t).batchFits = p.batchFits := rfl
        simp only [look, h w (worker?_some hw).1, hbuffer, hfits, drain_marked, callLast_marked,
          rest_marked, take_marked]
        cases p.buffer <;> simp only [apply_ite (Option.map (mark s t))] <;> rfl
      dsimp only
      cases w.stance with
      | handling => rfl
      | ready | idle => exact hlook

theorem finish_marked (id : Nat) (panicked : Bool) :
    (p.marked s t).finish id panicked = (p.finish id panicked).map (mark s t) := by
  have hfind : (p.marked s t).worker? id = p.worker? id := rfl
  unfold finish
  rw [hfind]
  cases p.worker? id with
  | none => rfl
  | some w =>
      dsimp only
      cases w.stance with
      | handling batch last =>
          simp only [apply_ite (Option.map (mark s t))]
          rfl
      | ready | idle => rfl

theorem flush_marked (cancelled : Bool) :
    (p.marked s t).flush cancelled = mark s t (p.flush cancelled) := by
  simp only [flush, apply_ite (mark s t)]
  rfl

theorem giveUpFlush_marked (call : Nat) :
    (p.marked s t).giveUpFlush call = (p.giveUpFlush call).map (mark s t) := by
  have hfind : (p.marked s t).flush? call = p.flush? call := rfl
  unfold giveUpFlush
  rw [hfind]
  cases p.flush? call with
  | none => rfl
  | some f =>
      simp only [apply_ite (Option.map (mark s t))]
      rfl

theorem pollFlush_marked (call : Nat) :
    (p.marked s t).pollFlush call = (p.pollFlush call).map (mark s t) := by
  have hfind : (p.marked s t).flush? call = p.flush? call := rfl
  unfold pollFlush
  rw [hfind]
  cases p.flush? call with
  | none => rfl
  | some f =>
      simp only [apply_ite (Option.map (mark s t))]
      rfl

/-- The steps that neither fire a token nor begin or end a stay. -/
def Label.plain : Label α → Bool
  | .addWorkers _ _ | .stopCrew _ | .expireBoost _ | .endStay _ => false
  | _ => true

theorem step_marked (h : ∀ w ∈ p.workers, (p.marked s t).crewStopped w.crew = p.crewStopped w.crew)
    {label : Label α} (hlabel : label.plain = true) :
    (p.marked s t).step label = (p.step label).map (mark s t) := by
  cases label with
  | push item cancelled => exact congrArg some (push_marked p s t item cancelled)
  | resume n => exact resume_marked p s t n
  | work id => exact work_marked p s t h id
  | finish id panicked => exact finish_marked p s t id panicked
  | flush cancelled => exact congrArg some (flush_marked p s t cancelled)
  | giveUpFlush call => exact giveUpFlush_marked p s t call
  | pollFlush call => exact pollFlush_marked p s t call
  | tick now =>
      simp only [step, apply_ite (Option.map (mark s t))]
      rfl
  | cancelPush | dropPush | cancelFlush | dropFlush | setMaxWorkers | manage | shutdown
  | terminate => rfl
  | addWorkers | stopCrew | expireBoost | endStay => cases hlabel

end Marked

section Gone

variable {p q : Pool α}

/-- A crew that has come and has no worker left. -/
def Gone (p : Pool α) (crew : Nat) : Prop := crew < p.crews ∧ crew ∉ p.roll

/-- Nobody joins a crew later: a worker that comes is of the crew that is formed. -/
theorem step_roll {label : Label α} {o : Outcome α} (ho : p.step label = some o) {crew : Nat}
    (hcrew : crew ∈ o.1.roll) : crew ∈ p.roll ∨ crew = p.crews ∧ o.1.crews = p.crews + 1 := by
  obtain ⟨-, hstart⟩ := step_numbers ho
  have hhire {number : Nat} {lifetime : Option Duration}
      (workers : o.1.workers = (p.hire number lifetime).1.workers)
      (told : .crewStarted p.crews number lifetime ∈ o.2) :
      crew ∈ p.roll ∨ crew = p.crews ∧ o.1.crews = p.crews + 1 := by
    rw [roll, workers, ← roll, hire_roll, List.mem_append] at hcrew
    exact hcrew.imp id fun h => ⟨(List.mem_replicate.mp h).2, hstart _ _ _ told⟩
  cases step_shift ho with
  | stay workers count steady =>
      rw [roll, workers] at hcrew
      exact Or.inl hcrew
  | hire number lifetime some_come called countable boost workers told =>
      exact hhire workers (by simp [told])
  | boost push observed number lifetime granted countable boost workers told =>
      exact hhire workers (by simp [told])
  | turn w v here same last workers count steady =>
      rw [roll, workers] at hcrew
      obtain ⟨u, hu, rfl⟩ := List.mem_map.mp hcrew
      rcases mem_update hu with rfl | hu
      · exact Or.inl (same ▸ List.mem_map_of_mem (worker?_some here).1)
      · exact Or.inl (List.mem_map_of_mem hu)
  | leave w here why workers boost front steady told =>
      rw [roll, workers] at hcrew
      obtain ⟨u, hu, rfl⟩ := List.mem_map.mp hcrew
      exact Or.inl (List.mem_map_of_mem (List.mem_of_mem_filter hu))

/-- The crew of every worker has been formed. -/
theorem step_roll_lt (h : ∀ crew ∈ p.roll, crew < p.crews) {label : Label α} {o : Outcome α}
    (ho : p.step label = some o) : ∀ crew ∈ o.1.roll, crew < o.1.crews := by
  intro crew hcrew
  rcases step_roll ho hcrew with hthere | ⟨rfl, hnext⟩
  · exact (h crew hthere).trans_le (step_numbers ho).1
  · rw [hnext]
    exact Nat.lt_succ_self p.crews

theorem step_gone {label : Label α} {o : Outcome α} (ho : p.step label = some o) {crew : Nat}
    (h : p.Gone crew) : o.1.Gone crew := by
  obtain ⟨hlt, hnone⟩ := h
  refine ⟨hlt.trans_le (step_numbers ho).1, fun hcrew => ?_⟩
  rcases step_roll ho hcrew with hcrew | ⟨rfl, -⟩
  · exact hnone hcrew
  · exact Nat.lt_irrefl _ hlt

/-- The stays of one crew. -/
def staysOf (p : Pool α) (crew : Nat) : List Deadline := p.stays.filter fun d => d.crew = crew

/-- Two pools that differ at most in tokens and stays of crews that are gone. -/
structure Twins (p q : Pool α) : Prop where
  same : q = p.marked q.stopped q.stays
  stopped : ∀ crew, ¬ p.Gone crew → q.crewStopped crew = p.crewStopped crew
  stays : ∀ crew, ¬ p.Gone crew → q.staysOf crew = p.staysOf crew

theorem Twins.refl (p : Pool α) : Twins p p := ⟨rfl, fun _ _ => rfl, fun _ _ => rfl⟩

theorem Twins.gone_iff (h : Twins p q) (crew : Nat) : q.Gone crew ↔ p.Gone crew := by
  rw [h.same]
  exact Iff.rfl

theorem Twins.symm (h : Twins p q) : Twins q p where
  same := by
    rw [h.same]
    rfl
  stopped := fun crew hcrew => (h.stopped crew (mt (h.gone_iff crew).mpr hcrew)).symm
  stays := fun crew hcrew => (h.stays crew (mt (h.gone_iff crew).mpr hcrew)).symm

theorem Twins.trans {r : Pool α} (h : Twins p q) (h' : Twins q r) : Twins p r where
  same := by
    rw [h'.same, h.same]
    rfl
  stopped := fun crew hcrew =>
    (h'.stopped crew (mt (h.gone_iff crew).mp hcrew)).trans (h.stopped crew hcrew)
  stays := fun crew hcrew =>
    (h'.stays crew (mt (h.gone_iff crew).mp hcrew)).trans (h.stays crew hcrew)

theorem Twins.worker_stopped (h : Twins p q) {w : Worker α} (hw : w ∈ p.workers) :
    q.crewStopped w.crew = p.crewStopped w.crew :=
  h.stopped w.crew fun hgone => hgone.2 (List.mem_map_of_mem hw)

theorem stopCrew_gone (p : Pool α) (stopped crew : Nat) :
    (p.stopCrew stopped).Gone crew ↔ p.Gone crew := by
  obtain ⟨tokens, hstop⟩ := stopCrew_eq p stopped
  rw [hstop]
  exact Iff.rfl

theorem stopCrew_stays (p : Pool α) (crew : Nat) : (p.stopCrew crew).stays = p.stays := by
  obtain ⟨tokens, hstop⟩ := stopCrew_eq p crew
  rw [hstop]

/-- The token of a crew fires in both. -/
theorem Twins.stopCrew (h : Twins p q) (crew : Nat) :
    Twins (p.stopCrew crew) (q.stopCrew crew) := by
  constructor
  · obtain ⟨tokens, hstop⟩ := stopCrew_eq p crew
    obtain ⟨others, hother⟩ := stopCrew_eq q crew
    rw [hstop, hother, h.same]
    rfl
  · intro other hother
    rw [stopCrew_gone] at hother
    rw [Bool.eq_iff_iff, stopCrew_crewStopped, stopCrew_crewStopped, h.stopped other hother]
  · intro other hother
    rw [stopCrew_gone] at hother
    rw [staysOf, staysOf, stopCrew_stays, stopCrew_stays]
    exact h.stays other hother

/-- A token that fires in one of them makes no difference, if its crew is gone or it had fired. -/
theorem twins_stopCrew {crew : Nat} (h : p.Gone crew ∨ p.crewStopped crew = true) :
    Twins p (p.stopCrew crew) := by
  constructor
  · obtain ⟨tokens, hstop⟩ := stopCrew_eq p crew
    rw [hstop]
    rfl
  · intro other hother
    rw [Bool.eq_iff_iff, stopCrew_crewStopped]
    constructor
    · rintro (hstopped | rfl)
      · exact hstopped
      · exact h.resolve_left hother
    · exact Or.inl
  · intro other hother
    rw [staysOf, stopCrew_stays, staysOf]

/-- A stay that is over in one of them makes no difference, if its crew is gone. -/
theorem twins_erase {d : Deadline} (h : p.Gone d.crew) :
    Twins p { p with stays := p.stays.erase d } where
  same := rfl
  stopped := fun _ _ => rfl
  stays := by
    intro crew hcrew
    have hother : ¬ decide (d.crew = crew) = true := by
      rw [decide_eq_true_eq]
      rintro rfl
      exact hcrew h
    change (p.stays.erase d).filter (fun e => e.crew = crew) = p.staysOf crew
    rw [← List.erase_filter, List.erase_of_not_mem]
    · rfl
    · exact fun hmem => hother (List.mem_filter.mp hmem).2

/-- Who is gone stays gone, so after a step there is no more to compare than before. -/
theorem Twins.carry {p' q' : Pool α} (h : Twins p q) (same : q' = p'.marked q'.stopped q'.stays)
    (gone : ∀ crew, p.Gone crew → p'.Gone crew)
    (stopped : ∀ crew, q.crewStopped crew = p.crewStopped crew →
      q'.crewStopped crew = p'.crewStopped crew)
    (stays : ∀ crew, q.staysOf crew = p.staysOf crew → q'.staysOf crew = p'.staysOf crew) :
    Twins p' q' where
  same := same
  stopped := fun crew hcrew => stopped crew (h.stopped crew fun hgone => hcrew (gone crew hgone))
  stays := fun crew hcrew => stays crew (h.stays crew fun hgone => hcrew (gone crew hgone))

/-- A step that neither fires a token nor begins or ends a stay is a step of both. -/
theorem Twins.plain_step (h : Twins p q) {label : Label α} (hlabel : label.plain = true)
    {o : Outcome α} (ho : p.step label = some o) :
    ∃ r, q.step label = some (r, o.2) ∧ Twins o.1 r := by
  have hworkers : ∀ w ∈ p.workers,
      (p.marked q.stopped q.stays).crewStopped w.crew = p.crewStopped w.crew := by
    intro w hw
    rw [← h.same]
    exact h.worker_stopped hw
  -- The step of the pool as it is leaves tokens and stays alone, for it does so under any others.
  have hown : o.1 = o.1.marked p.stopped p.stays := by
    have hsame := step_marked p p.stopped p.stays (fun _ _ => rfl) hlabel
    change p.step label = _ at hsame
    rw [ho] at hsame
    exact congrArg Prod.fst (Option.some.inj hsame)
  have hstopped : o.1.stopped = p.stopped := by rw [hown]; rfl
  have hstays : o.1.stays = p.stays := by rw [hown]; rfl
  refine ⟨o.1.marked q.stopped q.stays, ?_, h.carry rfl (fun _ => step_gone ho) ?_ ?_⟩
  · rw [h.same, step_marked p _ _ hworkers hlabel, ho]
    rfl
  · intro crew htokens
    have hlatched := (step_latched ho).terminated
    have hterminated : q.terminated = p.terminated := by rw [h.same]; rfl
    simp only [crewStopped, marked, hstopped, hterminated] at htokens ⊢
    cases hp : p.terminated with
    | true => rw [hlatched hp, Bool.true_or, Bool.true_or]
    | false =>
        rw [hp, Bool.false_or, Bool.false_or] at htokens
        rw [htokens]
  · intro crew hsame
    rw [staysOf, staysOf] at hsame ⊢
    rw [hstays]
    exact hsame

/-- Workers are added to both. -/
theorem Twins.addWorkers_step (h : Twins p q) {count : Nat} {stay : Option Duration} {o : Outcome α}
    (ho : p.step (.addWorkers count stay) = some o) :
    ∃ r, q.step (.addWorkers count stay) = some (r, o.2) ∧ Twins o.1 r := by
  have hgone : ∀ crew, p.Gone crew → o.1.Gone crew := fun _ => step_gone ho
  cases step_acts ho with
  | addNobody =>
      refine ⟨{ q with crews := q.crews + 1 }, rfl, h.carry ?_ hgone (fun _ => id) fun _ => id⟩
      rw [h.same]
      rfl
  | startBroke stay some_come uncountable =>
      have hover : ¬ q.boost.countable count = true := by
        rw [h.same, Bool.not_eq_true]
        exact uncountable
      refine ⟨q, ?_, h⟩
      simp only [Pool.step, Pool.addWorkers, if_neg (Nat.ne_of_gt some_come), if_neg hover]
  | @addWorkers count stay some_come countable stays limited =>
      have hcrews : q.crews = p.crews := by rw [h.same]; rfl
      have hnow : q.now = p.now := by rw [h.same]; rfl
      have hcountable : q.boost.countable count = true := by rw [h.same]; exact countable
      let added : List Deadline := stay.toList.map fun d => ⟨q.crews, q.now + d.nanos⟩
      let next : Pool α := { q with boost := q.boost.started count, stays := q.stays ++ added }
      have hnext : q.step (.addWorkers count stay) = some (next.hire count stay) := by
        simp only [Pool.step, Pool.addWorkers, if_neg (Nat.ne_of_gt some_come), if_pos hcountable]
        cases stay with
        | none => simp [next, added]
        | some d => rfl
      refine ⟨(next.hire count stay).1, ?_, h.carry ?_ hgone (fun _ => id) ?_⟩
      · rw [hnext]
        simp only [hire, next, hcrews]
      · simp only [next, hire]
        rw [h.same]
        rfl
      · intro crew hsame
        change (q.stays ++ added).filter (fun d => d.crew = crew) =
          stays.filter fun d => d.crew = crew
        rw [limited, ← hcrews, ← hnow, List.filter_append, List.filter_append]
        exact congrArg (fun l => l ++ added.filter fun d => d.crew = crew) hsame

/-- A boost ends in both. -/
theorem Twins.expireBoost_step (h : Twins p q) {crew : Nat} {o : Outcome α}
    (ho : p.step (.expireBoost crew) = some o) :
    ∃ r, q.step (.expireBoost crew) = some (r, o.2) ∧ Twins o.1 r := by
  have hgone : ∀ crew, p.Gone crew → o.1.Gone crew := fun _ => step_gone ho
  cases step_acts ho with
  | @expireBoost d known due =>
  have hboosts : q.boosts = p.boosts := by rw [h.same]; rfl
  have hready : q.terminated = true ∨ d.due ≤ q.now := by rw [h.same]; exact due
  refine ⟨{ q.stopCrew d.crew with boosts := q.boosts.erase d, boost := q.boost.expired }, ?_, ?_⟩
  · simp only [Pool.step, Pool.expireBoost, hboosts, known, if_pos hready]
  · have hstop := h.stopCrew d.crew
    refine hstop.carry ?_ ?_ (fun _ => id) fun _ => id
    · obtain ⟨tokens, htokens⟩ := stopCrew_eq p d.crew
      obtain ⟨others, hothers⟩ := stopCrew_eq q d.crew
      rw [htokens, hothers, h.same]
      rfl
    · exact fun crew hcrew => hgone crew ((stopCrew_gone p d.crew crew).mp hcrew)

/-- A stay ends in both, if its crew is not gone. -/
theorem Twins.endStay_step (h : Twins p q) {crew : Nat} (hseen : ¬ p.Gone crew) {o : Outcome α}
    (ho : p.step (.endStay crew) = some o) :
    ∃ r, q.step (.endStay crew) = some (r, o.2) ∧ Twins o.1 r := by
  have hgone : ∀ crew, p.Gone crew → o.1.Gone crew := fun _ => step_gone ho
  have hfind : (q.stays.find? fun d => d.crew = crew) = p.stays.find? fun d => d.crew = crew := by
    rw [← List.head?_filter, ← List.head?_filter]
    exact congrArg List.head? (h.stays crew hseen)
  have herase (d : Deadline) (other : Nat) (hsame : q.staysOf other = p.staysOf other) :
      (q.stays.erase d).filter (fun e => e.crew = other) =
        (p.stays.erase d).filter fun e => e.crew = other := by
    rw [← List.erase_filter, ← List.erase_filter]
    exact congrArg (fun l => List.erase l d) hsame
  have hstopped := h.stopped crew hseen
  cases step_acts ho with
  | @dropStay d known stopped =>
      refine ⟨{ q with stays := q.stays.erase d }, ?_, ?_⟩
      · simp only [Pool.step, Pool.endStay, hfind, known, hstopped, stopped, if_true]
      · refine h.carry ?_ hgone (fun _ => id) (herase d)
        rw [h.same]
        rfl
  | @endStay d known goes due =>
      have hnow : q.now = p.now := by rw [h.same]; rfl
      refine ⟨{ q.stopCrew d.crew with stays := q.stays.erase d }, ?_, ?_⟩
      · simp only [Pool.step, Pool.endStay, hfind, known, hstopped, goes, hnow, if_pos due]
        rfl
      · have hstop := h.stopCrew d.crew
        refine hstop.carry ?_ ?_ (fun _ => id) ?_
        · obtain ⟨tokens, htokens⟩ := stopCrew_eq p d.crew
          obtain ⟨others, hothers⟩ := stopCrew_eq q d.crew
          rw [htokens, hothers, h.same]
          rfl
        · exact fun crew hcrew => hgone crew ((stopCrew_gone p d.crew crew).mp hcrew)
        · intro other hsame
          rw [staysOf, staysOf, stopCrew_stays, stopCrew_stays] at hsame
          exact herase d other hsame

/-- A step of one of them is a step of the other. -/
theorem Twins.step (h : Twins p q) {label : Label α}
    (hseen : ∀ crew, label = .endStay crew → ¬ p.Gone crew) {o : Outcome α}
    (ho : p.step label = some o) : ∃ r, q.step label = some (r, o.2) ∧ Twins o.1 r := by
  by_cases hplain : label.plain = true
  · exact h.plain_step hplain ho
  cases label with
  | addWorkers count stay => exact h.addWorkers_step ho
  | stopCrew crew =>
      obtain rfl := Option.some.inj ho
      exact ⟨q.stopCrew crew, rfl, h.stopCrew crew⟩
  | expireBoost crew => exact h.expireBoost_step ho
  | endStay crew => exact h.endStay_step (hseen crew rfl) ho
  | _ => exact absurd rfl hplain

end Gone

end Coordination.Pool
