import Coordination.Proofs.Manager.Records
import Coordination.Proofs.Pool.Twins

/-!
A pool does not depend on its record. All that comes back from a record are tokens to fire, and
nobody is there to see it: a batch that loses its last worker fires the token of a crew that is
gone, and a watcher that of a crew that has been stopped before. So a pool that reports to a record
stays a twin of one that reports to nobody, step by step, whenever it is attached and whenever the
record goes away.
-/

namespace Coordination.Manager.Attached

variable {α : Type}

open Pool (Roster Twins)

theorem lapses_iff (p : Pool α) (label : Pool.Label α) :
    lapses p label = true ↔ ∃ crew, label = .endStay crew ∧ p.Gone crew := by
  cases label with
  | endStay crew => simp [lapses, Pool.Gone, Pool.roll]
  | _ => simp [lapses]

theorem snapshot_twins {p q : Pool α} (h : Twins p q) : snapshot q = snapshot p := by
  rw [h.same]
  rfl

/-- Tokens that fire make no difference where each crew is gone or had been stopped. -/
theorem fire_twins {p : Pool α} {fired : List Nat}
    (h : ∀ crew ∈ fired, p.Gone crew ∨ p.crewStopped crew = true) : Twins p (fire p fired) := by
  induction fired generalizing p with
  | nil => exact Twins.refl p
  | cons crew fired ih =>
      have hfirst : Twins p (p.stopCrew crew) := Pool.twins_stopCrew (h crew List.mem_cons_self)
      refine hfirst.trans (ih fun other hother => ?_)
      rw [Pool.stopCrew_gone, Pool.stopCrew_crewStopped]
      exact (h other (List.mem_cons_of_mem crew hother)).imp id Or.inl

/-- A pool on its own and one that may report to a record, at the same point of one schedule. -/
structure Shadows (q : Pool α) (a : Attached α) : Prop where
  twins : Twins q a.pool
  roster : Roster a.pool
  roll_lt : ∀ crew ∈ a.pool.roll, crew < a.pool.crews
  noted : ∀ l, a.ledger = some l → Noted a.pool (fun _ => True) l

section Shadows

variable {q : Pool α} {a b : Attached α}

theorem shadows_alone (config : Pool.Config) (start itemBytes : Nat) :
    Shadows (Pool.new config start itemBytes : Pool α) (alone config start itemBytes) where
  twins := Twins.refl _
  roster := Pool.roster_new config start itemBytes
  roll_lt := nofun
  noted := nofun

/-- What the record fires is not seen by anybody. -/
theorem shadows_fire {p : Pool α} {l : Ledger Nat} {fired : List Nat} (twins : Twins q p)
    (roster : Roster p) (noted : Noted p (fun _ => True) l)
    (unseen : ∀ crew ∈ fired, p.Gone crew ∨ p.crewStopped crew = true) :
    Shadows q ⟨fire p fired, some l⟩ := by
  have hfired : Twins q (fire p fired) := twins.trans (fire_twins unseen)
  obtain ⟨stopped, hfire⟩ := fire_eq p fired
  rw [hfire] at hfired ⊢
  refine ⟨hfired, roster.congr rfl rfl, noted.roll_lt, ?_⟩
  rintro m hm
  obtain rfl := Option.some.inj hm
  exact ⟨noted.roll_lt, noted.paired, noted.agrees⟩

/-- The pool has made a step, and its record, if there is one, has heard of it. -/
theorem Shadows.absorb (h : Shadows q a) {label : Pool.Label α} {o : Pool.Outcome α}
    (ho : a.pool.step label = some o) {r : Pool α} (twins : Twins r o.1) :
    Shadows r (a.absorb o) := by
  have hroster : Roster o.1 := (Pool.step_moved h.roster ho).roster
  unfold Attached.absorb
  split
  · rename_i hnone
    have hroll := Pool.step_roll_lt h.roll_lt ho
    exact ⟨twins, hroster, hroll, fun l hl => nomatch hnone.symm.trans hl⟩
  · rename_i l hl
    obtain ⟨⟨hroll, hpaired, hagrees⟩, hgone⟩ := step_noted h.roster (h.noted l hl) ho
    have hnoted : Noted o.1 (fun _ => True) (l.noteAll id o.2).1 :=
      ⟨hroll, hpaired, hagrees.mono fun _ _ => trivial⟩
    exact shadows_fire twins hroster hnoted fun crew hcrew => Or.inl (hgone crew hcrew)

/-- A step of the schedule is one for both. -/
theorem Shadows.step (h : Shadows q a) {label : Pool.Label α} (hseen : lapses a.pool label = false)
    {events : List (Pool.Event α)} (hb : a.step (.pool label) = some (b, events)) :
    ∃ r, q.step label = some (r, events) ∧ Shadows r b := by
  obtain ⟨o, ho, heq⟩ := Option.map_eq_some_iff.mp hb
  obtain ⟨rfl, rfl⟩ := Prod.mk.inj heq
  have hstays : ∀ crew, label = .endStay crew → ¬ a.pool.Gone crew := by
    rintro crew hlabel hgone
    rw [(lapses_iff a.pool label).mpr ⟨crew, hlabel, hgone⟩] at hseen
    cases hseen
  obtain ⟨r, hr, htwins⟩ := h.twins.symm.step hstays ho
  exact ⟨r, hr, h.absorb ho htwins.symm⟩

/-- What ends with the stay of a crew that is gone is the stay. -/
theorem lapse_twins {p : Pool α} {label : Pool.Label α} (hlapses : lapses p label = true)
    {o : Pool.Outcome α} (ho : p.step label = some o) : Twins p o.1 := by
  obtain ⟨crew, rfl, hgone⟩ := (lapses_iff p label).mp hlapses
  cases Pool.step_acts ho with
  | dropStay known stopped => exact Pool.twins_erase hgone
  | @endStay d known goes due =>
      have hstop : Twins p (p.stopCrew d.crew) := Pool.twins_stopCrew (Or.inl hgone)
      refine hstop.trans ?_
      have herase : Twins (p.stopCrew d.crew)
          { p.stopCrew d.crew with stays := (p.stopCrew d.crew).stays.erase d } :=
        Pool.twins_erase ((Pool.stopCrew_gone p d.crew d.crew).mpr hgone)
      rw [Pool.stopCrew_stays] at herase
      exact herase

theorem Shadows.lapse (h : Shadows q a) {label : Pool.Label α}
    (hlapses : lapses a.pool label = true)
    {events : List (Pool.Event α)} (hb : a.step (.pool label) = some (b, events)) :
    Shadows q b := by
  obtain ⟨o, ho, heq⟩ := Option.map_eq_some_iff.mp hb
  obtain ⟨rfl, rfl⟩ := Prod.mk.inj heq
  exact h.absorb ho (h.twins.trans (lapse_twins hlapses ho))

/-- A watcher fires the token of a crew that has been stopped. -/
theorem Shadows.watch (h : Shadows q a) {crew : Nat} {events : List (Pool.Event α)}
    (hb : a.step (.watch crew) = some (b, events)) : Shadows q b := by
  simp only [Attached.step] at hb
  split at hb
  · rename_i l hl
    obtain ⟨next, hnext, heq⟩ := Option.map_eq_some_iff.mp hb
    obtain ⟨rfl, rfl⟩ := Prod.mk.inj heq
    obtain ⟨hroll, hpaired, hagrees⟩ := h.noted l hl
    unfold Ledger.watch at hnext
    split at hnext
    · cases hnext
    · rename_i k hk
      have hfound := List.find?_some hk
      simp only [decide_eq_true_eq] at hfound
      split at hnext
      · rename_i hstopped
        obtain rfl := Option.some.inj hnext
        obtain ⟨staffed, counted, recorded⟩ : Ledger.Agrees a.pool.roll (fun _ => True) _ :=
          (hagrees.forget hpaired k.batch).mono fun _ _ => trivial
        refine shadows_fire h.twins h.roster
          ⟨hroll, hpaired.unwatch k, ⟨staffed, counted, recorded⟩⟩ fun fired hfired => Or.inr ?_
        rw [hpaired.fired_of_forget (List.mem_of_find?_eq_some hk) (Option.mem_toList.mp hfired),
          hfound.1]
        exact hstopped
      · cases hnext
  · cases hb

/-- A new record has nothing to say of anybody. -/
theorem Shadows.attach (h : Shadows q a) : Shadows q (attach a.pool) where
  twins := h.twins
  roster := h.roster
  roll_lt := h.roll_lt
  noted := by
    rintro l hl
    obtain rfl := Option.some.inj hl
    refine ⟨h.roll_lt, ?_, ?_⟩
    · constructor <;> simp
    · constructor <;> simp

theorem Shadows.detach (h : Shadows q a) : Shadows q { a with ledger := none } where
  twins := h.twins
  roster := h.roster
  roll_lt := h.roll_lt
  noted := nofun

/-- A move that is none of the schedule leaves the pool on its own where it is. -/
theorem Shadows.unscheduled (h : Shadows q a) {m : Move α} (hnone : m.scheduled? a = none)
    {events : List (Pool.Event α)} (hb : a.move m = some (b, events)) : Shadows q b := by
  cases m with
  | pool label =>
      refine h.lapse ?_ hb
      by_contra hseen
      simp [Move.scheduled?, hseen] at hnone
  | watch crew => exact h.watch hb
  | attach =>
      simp only [move] at hb
      split at hb
      · obtain ⟨rfl, -⟩ := Prod.mk.inj (Option.some.inj hb)
        exact h.attach
      · cases hb
  | detach =>
      obtain ⟨rfl, -⟩ := Prod.mk.inj (Option.some.inj hb)
      exact h.detach

theorem Shadows.scheduled (h : Shadows q a) {m : Move α} {label : Pool.Label α}
    (hsome : m.scheduled? a = some label) {events : List (Pool.Event α)}
    (hb : a.move m = some (b, events)) : ∃ r, q.step label = some (r, events) ∧ Shadows r b := by
  cases m with
  | pool other =>
      simp only [Move.scheduled?] at hsome
      split at hsome
      · cases hsome
      · rename_i hseen
        obtain rfl := Option.some.inj hsome
        exact h.step (Bool.eq_false_of_not_eq_true hseen) hb
  | watch | attach | detach => cases hsome

/-- The pool on its own follows the schedule, and the same is seen of it. -/
theorem Shadows.observe (h : Shadows q a) {moves : List (Move α)} {schedule : List (Pool.Label α)}
    {seen : List (Moment α)} (hb : a.observe moves = some (b, schedule, seen)) :
    ∃ r, moments q schedule = some (r, seen) ∧ Shadows r b := by
  induction moves generalizing q a schedule seen with
  | nil =>
      obtain ⟨rfl, rfl, rfl⟩ : a = b ∧ [] = schedule ∧ [] = seen := by
        simpa [Attached.observe] using hb
      exact ⟨q, rfl, h⟩
  | cons m moves ih =>
      unfold Attached.observe at hb
      split at hb
      · cases hb
      · rename_i c events hmove
        obtain ⟨⟨d, rest, later⟩, hrest, heq⟩ := Option.map_eq_some_iff.mp hb
        dsimp only at heq
        split at heq
        · rename_i label hlabel
          obtain ⟨r, hr, hnext⟩ := h.scheduled hlabel hmove
          obtain ⟨rfl, rfl, rfl⟩ : d = b ∧ label :: rest = schedule ∧
              ⟨a.pool.now, events, snapshot c.pool⟩ :: later = seen := by simpa using heq
          obtain ⟨last, hlast, hshadows⟩ := ih hnext hrest
          have hnow : a.pool.now = q.now := by rw [h.twins.same]; rfl
          refine ⟨last, ?_, hshadows⟩
          simp only [moments, hr, hlast, hnow, snapshot_twins hnext.twins, Option.map_some]
        · rename_i hnone
          obtain ⟨rfl, rfl, rfl⟩ : d = b ∧ rest = schedule ∧ later = seen := by simpa using heq
          exact ih (h.unscheduled hnone hmove) hrest

/-- Two that shadow one pool can take the same steps of a schedule. -/
theorem Shadows.isSome_step (h : Shadows q a) (h' : Shadows q b) {label : Pool.Label α}
    (hseen : lapses a.pool label = false) (hsome : (a.step (.pool label)).isSome) :
    (b.step (.pool label)).isSome := by
  obtain ⟨⟨c, events⟩, hc⟩ := Option.isSome_iff_exists.mp hsome
  obtain ⟨r, hr, -⟩ := h.step hseen hc
  have hstays : ∀ crew, label = .endStay crew → ¬ q.Gone crew := by
    rintro crew hlabel hgone
    rw [(lapses_iff a.pool label).mpr ⟨crew, hlabel, (h.twins.gone_iff crew).mpr hgone⟩] at hseen
    cases hseen
  obtain ⟨t, ht, -⟩ := h'.twins.step hstays hr
  change ((b.pool.step label).map _).isSome = true
  rw [ht]
  rfl

/-- What is not of the schedule is told of by nobody. -/
theorem unscheduled_silent {m : Move α} (hnone : m.scheduled? a = none)
    {events : List (Pool.Event α)} (hb : a.move m = some (b, events)) : events = [] := by
  cases m with
  | pool label =>
      have hlapses : lapses a.pool label = true := by
        by_contra hseen
        simp [Move.scheduled?, hseen] at hnone
      obtain ⟨crew, rfl, -⟩ := (lapses_iff a.pool label).mp hlapses
      obtain ⟨o, ho, heq⟩ := Option.map_eq_some_iff.mp hb
      obtain ⟨-, rfl⟩ := Prod.mk.inj heq
      cases Pool.step_acts ho <;> rfl
  | watch crew =>
      simp only [move, Attached.step] at hb
      split at hb
      · obtain ⟨next, -, heq⟩ := Option.map_eq_some_iff.mp hb
        exact (Prod.mk.inj heq).2.symm
      · cases hb
  | attach =>
      simp only [move] at hb
      split at hb
      · exact (Prod.mk.inj (Option.some.inj hb)).2.symm
      · cases hb
  | detach => exact (Prod.mk.inj (Option.some.inj hb)).2.symm

end Shadows

/-- A pool does not depend on its record. Whenever it is attached and whenever the record goes away,
and however the watchers come in between: what can be seen of the steps of a schedule is what can be
seen of a pool that is on its own and takes the same steps. This is what happens in each step, such
as a handler called with a batch or a push or flush that returns, when it happens, and what the pool
shows of itself after it, such as its pending items, workers, phase and block timeout. So for two
pools that have followed one schedule the same has been seen, and the same steps can follow. Moves
that are not of the schedule tell of nothing and show nothing new. -/
theorem record_unseen {config : Pool.Config} {start itemBytes : Nat} {moves : List (Move α)}
    {a : Attached α} {schedule : List (Pool.Label α)} {seen : List (Moment α)}
    (h : (alone config start itemBytes).observe moves = some (a, schedule, seen)) :
    (∃ q, moments (Pool.new config start itemBytes) schedule = some (q, seen) ∧
      snapshot q = snapshot a.pool) ∧
    (∀ others b sights, (alone config start itemBytes).observe others = some (b, schedule, sights) →
      sights = seen ∧ snapshot b.pool = snapshot a.pool ∧
      ∀ label, lapses a.pool label = false →
        ((a.step (.pool label)).isSome ↔ (b.step (.pool label)).isSome)) ∧
    ∀ m b events, m.scheduled? a = none → a.move m = some (b, events) →
      events = [] ∧ snapshot b.pool = snapshot a.pool := by
  obtain ⟨q, hq, hshadows⟩ := (shadows_alone config start itemBytes).observe h
  refine ⟨⟨q, hq, (snapshot_twins hshadows.twins).symm⟩, ?_, ?_⟩
  · intro others b sights hb
    obtain ⟨r, hr, hother⟩ := (shadows_alone config start itemBytes).observe hb
    obtain ⟨rfl, rfl⟩ := Prod.mk.inj (Option.some.inj (hq.symm.trans hr))
    refine ⟨rfl, ?_, fun label hseen => ⟨hshadows.isSome_step hother hseen, ?_⟩⟩
    · rw [snapshot_twins hother.twins, snapshot_twins hshadows.twins]
    · refine hother.isSome_step hshadows ?_
      rw [← hseen, Bool.eq_iff_iff, lapses_iff, lapses_iff]
      simp only [hother.twins.gone_iff, hshadows.twins.gone_iff]
  · intro m b events hnone hb
    refine ⟨unscheduled_silent hnone hb, ?_⟩
    rw [snapshot_twins (hshadows.unscheduled hnone hb).twins, snapshot_twins hshadows.twins]

/-- Room for one item and batches of one. -/
def visitedConfig : Pool.Config where
  queueLength := 1
  batchLength := 1

/-- One worker comes for 100 ns, the pool is attached, and another comes for 50 ns. That one panics,
so its batch fires its token: the watcher of the batch runs, and its stay is over at once. The first
worker leaves when its stay ends, and so does the record. -/
def visitedMoves : List (Move Nat) :=
  [.pool (.addWorkers 1 (some (.ofNanos 100))), .attach,
    .pool (.addWorkers 1 (some (.ofNanos 50))), .pool (.push 10 false), .pool (.work 0),
    .pool (.push 20 false), .pool (.work 1), .pool (.finish 1 true), .watch 1, .pool (.endStay 1),
    .pool (.finish 0 false), .pool (.tick 100), .pool (.endStay 0), .pool (.work 0), .detach,
    .pool .shutdown]

/-- The same schedule without a record. -/
def unvisitedMoves : List (Move Nat) :=
  [.pool (.addWorkers 1 (some (.ofNanos 100))), .pool (.addWorkers 1 (some (.ofNanos 50))),
    .pool (.push 10 false), .pool (.work 0), .pool (.push 20 false), .pool (.work 1),
    .pool (.finish 1 true), .pool (.finish 0 false), .pool (.tick 100), .pool (.endStay 0),
    .pool (.work 0), .pool .shutdown]

theorem record_unseen_visited : ∃ (a b : Attached Nat) (schedule : List (Pool.Label Nat))
    (seen sights : List (Moment Nat)),
    (alone visitedConfig 0 8).observe visitedMoves = some (a, schedule, seen) ∧
    (alone visitedConfig 0 8).observe unvisitedMoves = some (b, schedule, sights) ∧
    schedule.length = 12 ∧ a.pool.stays = [] ∧ b.pool.stays = [⟨1, 50⟩] ∧ sights = seen ∧
    snapshot b.pool = snapshot a.pool := by
  have h : (alone visitedConfig 0 8).observe visitedMoves = some (_, _, _) := rfl
  have h' : (alone visitedConfig 0 8).observe unvisitedMoves = some (_, _, _) := rfl
  obtain ⟨-, hsame, -⟩ := record_unseen h
  obtain ⟨hseen, hshown, -⟩ := hsame _ _ _ h'
  exact ⟨_, _, _, _, _, h, h', rfl, rfl, rfl, hseen, hshown⟩

end Coordination.Manager.Attached
