import Coordination.Proofs.Pool.Control

/-!
Boosts and their ends, one to one. Whatever becomes of the crew that a boost started, the end of
the boost is told to the controller once, when the lifetime that it was granted has passed or the
pool has been terminated. So the boosts that count as active are those that were granted and have
not ended, and where all of them have had their time the block timeout is the configured one, unless
a push has broken off: its doubling has no end that would undo it.
-/

namespace Coordination.Pool

variable {α : Type}

/-- A boost that was granted: its crew, and when it was granted for how long. -/
structure Grant where
  crew : Nat
  time : Nat
  lifetime : Duration
  deriving DecidableEq, Repr

def Grant.due (g : Grant) : Nat := g.time + g.lifetime.nanos

/-- The boosts that were granted, in order. A push that is granted one is answered, and then its
crew is started. -/
def grants : List (Nat × Event α) → List Grant
  | (now, .asked _ _ (.boost _ lifetime)) :: (_, .crewStarted crew _ _) :: later =>
    ⟨crew, now, lifetime⟩ :: grants later
  | _ :: later => grants later
  | [] => []

def expiries (crew : Nat) (history : List (Nat × Event α)) : List Nat :=
  history.filterMap fun h =>
    match h.2 with
    | .boostExpired c => if c = crew then some h.1 else none
    | _ => none

def outstanding (history : List (Nat × Event α)) : List Grant :=
  (grants history).filter fun g => (expiries g.crew history).isEmpty

/-- When a pool is terminated that has come to `now` before these steps. -/
def terminatedAt (now : Nat) : List (Label α) → Option Nat
  | [] => none
  | .terminate :: _ => some now
  | label :: labels => terminatedAt (label.clock now) labels

/-- When a boost has to end: with its lifetime or with its pool, whichever is earlier. -/
def Grant.ends (g : Grant) : Option Nat → Nat
  | some terminated => min g.due terminated
  | none => g.due

/-- No end of a boost is late: time moves only while none has come, and not past the next one. -/
def OnTime (p : Pool α) (label : Label α) : Prop :=
  ∀ now, label = .tick now → ∀ d ∈ p.boosts, p.expireBoost d.crew = none ∧ now ≤ d.due

instance decidableOnTime (p : Pool α) : (label : Label α) → Decidable (OnTime p label)
  | .tick now =>
    decidable_of_iff (∀ d ∈ p.boosts, (p.expireBoost d.crew).isNone ∧ now ≤ d.due) (by
      simp only [OnTime, Option.isNone_iff_eq_none]
      exact ⟨fun h _ heq => Label.tick.inj heq ▸ h, fun h => h now rfl⟩)
  | .push .. | .cancelPush .. | .resume .. | .dropPush .. | .addWorkers .. | .stopCrew .. | .work ..
  | .finish .. | .expireBoost .. | .endStay .. | .flush .. | .cancelFlush .. | .giveUpFlush ..
  | .pollFlush .. | .dropFlush .. | .setMaxWorkers .. | .manage .. | .shutdown
  | .terminate => isTrue nofun

section Told

variable {history : List (Nat × Event α)} {events : List (Event α)} {now crew : Nat}

theorem expiries_append (crew : Nat) (h k : List (Nat × Event α)) :
    expiries crew (h ++ k) = expiries crew h ++ expiries crew k := List.filterMap_append

def Boostless (events : List (Event α)) : Prop := ∀ turn ∈ turns events, turn = .overran

theorem boostless_of_calm (calm : turns events = []) : Boostless events := by
  intro turn hturn
  rw [calm] at hturn
  cases hturn

theorem Boostless.overran (h : Boostless events) {e : Event α} (he : e ∈ events)
    {turn : Boost.Turn} (hturn : e.turn? = some turn) : turn = .overran :=
  h turn (List.mem_filterMap.mpr ⟨e, he, hturn⟩)

theorem Boostless.expiries (calm : Boostless events) (crew now : Nat) :
    expiries crew (stamp now events) = [] := by
  rw [Pool.expiries, List.filterMap_eq_nil_iff]
  intro h hh
  obtain ⟨e, he, rfl⟩ := List.mem_map.mp hh
  cases e with
  | boostExpired => cases calm.overran he rfl
  | _ => rfl

/-- The last thing told is not that a boost was granted, so its crew has been told of too. -/
def CrewTold (history : List (Nat × Event α)) : Prop :=
  ∀ h ∈ history.getLast?, ∀ push observed number lifetime,
    h.2 ≠ .asked push observed (.boost number lifetime)

theorem crewTold_append {k : List (Nat × Event α)} (hh : CrewTold history) (hk : CrewTold k) :
    CrewTold (history ++ k) := by
  intro x hx
  rw [List.getLast?_append] at hx
  cases hlast : k.getLast? with
  | none =>
      rw [hlast, Option.none_or] at hx
      exact hh x hx
  | some y =>
      rw [hlast, Option.some_or] at hx
      exact hk x (hlast ▸ hx)

theorem Boostless.crewTold (calm : Boostless events) (now : Nat) : CrewTold (stamp now events) := by
  rintro h hh push observed number lifetime heq
  obtain ⟨e, he, rfl⟩ := List.mem_map.mp (List.mem_of_getLast? hh)
  obtain rfl : e = _ := heq
  cases calm.overran he rfl

theorem Boostless.grants (calm : Boostless events) (now : Nat) :
    grants (stamp now events) = [] := by
  induction events with
  | nil => rfl
  | cons e events ih =>
      have hrest : Boostless events := by
        intro turn hturn
        obtain ⟨e, he, hturn⟩ := List.mem_filterMap.mp hturn
        exact calm.overran (List.mem_cons_of_mem _ he) hturn
      have hskip : Pool.grants (stamp now (e :: events)) = Pool.grants (stamp now events) := by
        rw [stamp, List.map_cons, Pool.grants]
        · rfl
        · rintro now' push observed number lifetime now'' crew count stay later heq -
          obtain ⟨-, rfl⟩ := Prod.mk.inj heq
          cases calm.overran List.mem_cons_self rfl
      rw [hskip, ih hrest]

theorem CrewTold.tail {x : Nat × Event α} (h : CrewTold (x :: history)) : CrewTold history := by
  intro y hy
  cases history with
  | nil => cases hy
  | cons z history => exact h y (by rwa [List.getLast?_cons_cons])

theorem grants_append (h : CrewTold history) (k : List (Nat × Event α)) :
    grants (history ++ k) = grants history ++ grants k := by
  fun_induction grants history with
  | case1 now push observed number lifetime now' crew count stay later ih =>
      rw [List.cons_append, List.cons_append, grants, ih h.tail.tail, List.cons_append]
  | case2 x later hskip ih =>
      -- The crew of a boost that is told last here would be told of first in what comes after.
      rw [List.cons_append, grants, ih h.tail]
      rintro now push observed number lifetime now' crew count stay rest rfl hlater
      cases later with
      | nil => exact h _ rfl push observed number lifetime rfl
      | cons y later =>
          obtain ⟨rfl, -⟩ := List.cons.inj hlater
          exact hskip now push observed number lifetime now' crew count stay later rfl rfl
  | case3 => rfl

/-- A granted boost is told of with its crew. -/
theorem told_grant (h : CrewTold history) (now push number crew : Nat)
    (observed lifetime : Duration) :
    let later : List (Nat × Event α) := stamp now
      [.asked push observed (.boost number lifetime), .crewStarted crew number (some lifetime)]
    CrewTold (history ++ later) ∧
      grants (history ++ later) = grants history ++ [⟨crew, now, lifetime⟩] ∧
      ∀ c, expiries c (history ++ later) = expiries c history := by
  refine ⟨crewTold_append h ?_, grants_append h _, fun c => ?_⟩
  · rintro x hx
    obtain rfl := Option.some.inj hx
    exact nofun
  · rw [expiries_append]
    exact List.append_nil _

theorem told_expiry (h : CrewTold history) (now crew : Nat) :
    let later : List (Nat × Event α) := stamp now [.boostExpired crew]
    CrewTold (history ++ later) ∧ grants (history ++ later) = grants history ∧
      ∀ c, expiries c (history ++ later) =
        expiries c history ++ if crew = c then [now] else [] := by
  refine ⟨crewTold_append h ?_, ?_, fun c => ?_⟩
  · rintro x hx
    obtain rfl := Option.some.inj hx
    exact nofun
  · rw [grants_append h]
    exact List.append_nil _
  · rw [expiries_append]
    by_cases hcrew : crew = c <;> simp [expiries, stamp, hcrew]

theorem told_boostless (h : CrewTold history) (now : Nat) (calm : Boostless events) :
    CrewTold (history ++ stamp now events) ∧
      grants (history ++ stamp now events) = grants history ∧
      ∀ c, expiries c (history ++ stamp now events) = expiries c history := by
  refine ⟨crewTold_append h (calm.crewTold now), ?_, fun c => ?_⟩
  · rw [grants_append h, calm.grants now, List.append_nil]
  · rw [expiries_append, calm.expiries c now, List.append_nil]

end Told

section Clock

/-- The time and the end of a pool can be read off the steps that were taken. -/
structure Clocked (start : Nat) (p : Pool α) (labels : List (Label α)) : Prop where
  now : labels.foldl (fun now label => label.clock now) start = p.now
  ended : (terminatedAt start labels).isSome = true ↔ p.terminated = true
  ended_le : ∀ t ∈ terminatedAt start labels, t ≤ p.now

theorem terminatedAt_append (start : Nat) (labels more : List (Label α)) :
    terminatedAt start (labels ++ more) = (terminatedAt start labels).or
      (terminatedAt (labels.foldl (fun now label => label.clock now) start) more) := by
  induction labels generalizing start with
  | nil => rfl
  | cons label labels ih =>
      cases label with
      | terminate => rfl
      | _ => exact ih _

theorem Clocked.terminatedAt_snoc {start : Nat} {p : Pool α} {labels : List (Label α)}
    (h : Clocked start p labels) (label : Label α) :
    terminatedAt start (labels ++ [label]) =
      (terminatedAt start labels).or (terminatedAt p.now [label]) := by
  rw [terminatedAt_append, h.now]

theorem Clocked.next {start : Nat} {p : Pool α} {labels : List (Label α)}
    (h : Clocked start p labels) {label : Label α} {o : Outcome α} (ho : p.step label = some o) :
    Clocked start o.1 (labels ++ [label]) := by
  obtain ⟨hnow, hlater, hterminated⟩ := step_elapses ho
  have hone : (terminatedAt p.now [label]).isSome = true ↔ label = .terminate := by
    cases label <;> simp [terminatedAt]
  constructor
  · rw [List.foldl_append, h.now, hnow]
    rfl
  · rw [h.terminatedAt_snoc, Option.isSome_or, Bool.or_eq_true, h.ended, hone, hterminated]
  · intro t ht
    rw [h.terminatedAt_snoc, Option.mem_def, Option.or_eq_some_iff] at ht
    rcases ht with hold | ⟨-, hnew⟩
    · exact (h.ended_le t hold).trans hlater
    · cases label with
      | terminate =>
          obtain rfl := Option.some.inj hnew
          exact hlater
      | _ => cases hnew

/-- A boost has to end once its lifetime has passed or the pool has been terminated. -/
theorem Clocked.ends_le {start : Nat} {p : Pool α} {labels : List (Label α)}
    (h : Clocked start p labels) (g : Grant) :
    g.ends (terminatedAt start labels) ≤ p.now ↔ p.terminated = true ∨ g.due ≤ p.now := by
  have hended := h.ended
  have hle := h.ended_le
  cases hat : terminatedAt start labels with
  | none =>
      rw [hat] at hended
      have hgoes : ¬ p.terminated = true := fun hover => nomatch hended.mpr hover
      exact (or_iff_right hgoes).symm
  | some t =>
      rw [hat] at hended hle
      have hover : p.terminated = true := hended.mp rfl
      exact iff_of_true ((min_le_right _ _).trans (hle t rfl)) (Or.inl hover)

/-- A later end of the pool brings the end of a boost forward at most. -/
theorem Grant.ends_or_le (g : Grant) (t u : Option Nat) : g.ends (t.or u) ≤ g.ends t := by
  cases t with
  | some t => exact le_rfl
  | none =>
      cases u with
      | some u => exact min_le_left _ _
      | none => exact le_rfl

/-- It is not brought forward to before that end. -/
theorem Grant.le_ends_or {g : Grant} {t u : Option Nat} {n : Nat} (h : n ≤ g.ends t)
    (hu : ∀ m ∈ u, n ≤ m) : n ≤ g.ends (t.or u) := by
  cases t with
  | some t => exact h
  | none =>
      cases u with
      | some u => exact le_min h (hu u rfl)
      | none => exact h

theorem eq_now_of_terminatedAt {now t : Nat} {label : Label α} (h : t ∈ terminatedAt now [label]) :
    label = .terminate ∧ t = now := by
  cases label with
  | terminate => exact ⟨rfl, (Option.some.inj h).symm⟩
  | _ => cases h

end Clock

section Matching

variable {p : Pool α} {o : Outcome α} {history : List (Nat × Event α)}

def Grant.deadline (g : Grant) : Deadline := ⟨g.crew, g.due⟩

/-- The pool keeps the ends to come of exactly the boosts that are outstanding, told apart by their
crews; and no boost has ended that was not granted. -/
structure Matched (p : Pool α) (history : List (Nat × Event α)) : Prop where
  told : CrewTold history
  boosts : p.boosts = (outstanding history).map Grant.deadline
  nodup : ((grants history).map Grant.crew).Nodup
  crew_lt : ∀ g ∈ grants history, g.crew < p.crews
  granted : ∀ crew, expiries crew history ≠ [] → ∃ g ∈ grants history, g.crew = crew

theorem mem_outstanding {g : Grant} :
    g ∈ outstanding history ↔ g ∈ grants history ∧ expiries g.crew history = [] := by
  rw [outstanding, List.mem_filter, List.isEmpty_iff]

theorem Matched.outstanding_of_mem (h : Matched p history) {d : Deadline} (hd : d ∈ p.boosts) :
    ∃ g ∈ outstanding history, g.deadline = d := by
  rw [h.boosts] at hd
  exact List.mem_map.mp hd

theorem outstanding_nodup (h : ((grants history).map Grant.crew).Nodup) :
    ((outstanding history).map Grant.crew).Nodup :=
  h.sublist (List.filter_sublist.map Grant.crew)

/-- The end of a boost is a step that can be taken once it has to be, and for nobody else. -/
theorem Matched.expireBoost_isSome (h : Matched p history) (crew : Nat) :
    (p.expireBoost crew).isSome ↔
      ∃ g ∈ outstanding history, g.crew = crew ∧ (p.terminated = true ∨ g.due ≤ p.now) := by
  have hcrews : (p.boosts.map Deadline.crew).Nodup := by
    rw [h.boosts, List.map_map]
    exact outstanding_nodup h.nodup
  unfold Pool.expireBoost
  constructor
  · intro hsome
    split at hsome
    · cases hsome
    · rename_i d hfind
      obtain ⟨hd, rfl⟩ := mem_of_find?_key hfind
      obtain ⟨g, hg, rfl⟩ := h.outstanding_of_mem hd
      split at hsome
      · rename_i hdue
        exact ⟨g, hg, rfl, hdue⟩
      · cases hsome
  · rintro ⟨g, hg, rfl, hdue⟩
    have hd : g.deadline ∈ p.boosts := by
      rw [h.boosts]
      exact List.mem_map_of_mem hg
    have hfind : (p.boosts.find? fun d => d.crew = g.crew) = some g.deadline := find?_key hcrews hd
    have hready : p.terminated = true ∨ g.deadline.due ≤ p.now := hdue
    simp only [hfind, if_pos hready, Option.isSome_some]

/-- Taking out the end of one boost takes out that of its crew. -/
theorem erase_deadline {boosts : List Grant} (h : (boosts.map Grant.crew).Nodup) {g : Grant}
    (hg : g ∈ boosts) : (boosts.map Grant.deadline).erase g.deadline =
      (boosts.filter fun b => b.crew ≠ g.crew).map Grant.deadline := by
  have hnodup : (boosts.map Grant.deadline).Nodup := by
    refine List.Nodup.of_map Deadline.crew ?_
    rwa [List.map_map]
  rw [hnodup.erase_eq_filter, List.filter_map]
  congr 1
  refine List.filter_congr fun b hb => ?_
  have hsame : b.deadline = g.deadline ↔ b.crew = g.crew := by
    constructor
    · exact congrArg Deadline.crew
    · intro hcrew
      rw [List.inj_on_of_nodup_map h hb hg hcrew]
  by_cases hcrew : b.crew = g.crew
  · simp [hcrew, hsame.mpr hcrew]
  · simp [hcrew, hsame.not.mpr hcrew]

/-- The crew of a boost that is being granted is new. -/
theorem Matched.fresh (h : Matched p history) :
    p.crews ∉ (grants history).map Grant.crew ∧ expiries p.crews history = [] := by
  have hnew : p.crews ∉ (grants history).map Grant.crew := by
    rintro hmem
    obtain ⟨g, hg, heq⟩ := List.mem_map.mp hmem
    exact absurd (h.crew_lt g hg) (by omega)
  refine ⟨hnew, ?_⟩
  by_contra hsome
  obtain ⟨g, hg, heq⟩ := h.granted p.crews hsome
  exact hnew (heq ▸ List.mem_map_of_mem hg)

/-- A step that leaves the boosts alone, whatever else it does. -/
theorem Matched.next_boostless (h : Matched p history) (calm : Boostless o.2)
    (boosts : o.1.boosts = p.boosts) (crews : p.crews ≤ o.1.crews) :
    Matched o.1 (history ++ stamp p.now o.2) := by
  obtain ⟨htold, hgrants, hexpiries⟩ := told_boostless h.told p.now calm
  constructor
  · exact htold
  · simp only [outstanding, hgrants, hexpiries]
    rw [boosts]
    exact h.boosts
  · rw [hgrants]
    exact h.nodup
  · intro g hg
    rw [hgrants] at hg
    exact (h.crew_lt g hg).trans_le crews
  · intro crew hsome
    rw [hexpiries] at hsome
    rw [hgrants]
    exact h.granted crew hsome

theorem boostless_pushBroke (push : Nat) : Boostless [(.pushBroke push : Event α)] := by
  intro turn hturn
  exact List.mem_singleton.mp hturn

theorem Matched.next (h : Matched p history) (turn : Boosting p o) :
    Matched o.1 (history ++ stamp p.now o.2) := by
  cases turn with
  | grant push observed number runs granted boost boosts crews now told =>
      obtain ⟨hnew, hnone⟩ := h.fresh
      obtain ⟨htold, hgrants, hexpiries⟩ :=
        told_grant h.told p.now push number p.crews observed p.boost.lifetime
      rw [told]
      constructor
      · exact htold
      · simp only [outstanding, hgrants, hexpiries, List.filter_append, List.map_append]
        rw [boosts, h.boosts, outstanding, List.filter_singleton, hnone]
        rfl
      · rw [hgrants, List.map_append]
        exact h.nodup.append (List.nodup_singleton _) (by simpa using hnew)
      · intro g hg
        rw [hgrants, List.mem_append, List.mem_singleton] at hg
        rw [crews]
        rcases hg with hg | rfl
        · exact Nat.lt_succ_of_lt (h.crew_lt g hg)
        · exact Nat.lt_succ_self p.crews
      · intro crew hsome
        rw [hexpiries] at hsome
        obtain ⟨g, hg, hcrew⟩ := h.granted crew hsome
        exact ⟨g, hgrants ▸ List.mem_append_left _ hg, hcrew⟩
  | expire d known due boost boosts crews now told =>
      obtain ⟨g, hg, rfl⟩ := h.outstanding_of_mem known
      obtain ⟨htold, hgrants, hexpiries⟩ := told_expiry h.told p.now g.crew
      rw [told]
      change Matched o.1 (history ++ stamp p.now [.boostExpired g.crew])
      constructor
      · exact htold
      · rw [boosts, h.boosts, erase_deadline (outstanding_nodup h.nodup) hg]
        simp only [outstanding, hgrants, hexpiries, List.filter_filter]
        congr 1
        refine List.filter_congr fun b _ => ?_
        by_cases hcrew : g.crew = b.crew
        · simp [hcrew]
        · simp [hcrew, Ne.symm hcrew]
      · rw [hgrants]
        exact h.nodup
      · rw [hgrants, crews]
        exact h.crew_lt
      · intro crew hsome
        rw [hgrants]
        by_cases hcrew : g.crew = crew
        · exact ⟨g, (mem_outstanding.mp hg).1, hcrew⟩
        · rw [hexpiries, if_neg hcrew, List.append_nil] at hsome
          exact h.granted crew hsome
  | breakOff push observed overflow boost boosts crews told =>
      exact h.next_boostless (told ▸ boostless_pushBroke push) boosts crews.ge
  | keep unturned =>
      exact h.next_boostless (boostless_of_calm unturned.calm) unturned.boosts unturned.crews

/-- What a step means for a boost: it is granted by the step, it ends with it, which it does once,
or it goes on as it was. -/
inductive Fate (p : Pool α) (o : Outcome α) (history : List (Nat × Event α)) (g : Grant) :
    Prop where
  | granted (runs : p.terminated = false) (now : o.1.now = p.now) (due : p.now ≤ g.due)
    (none_yet : expiries g.crew (history ++ stamp p.now o.2) = [])
  | ended (before : g ∈ outstanding history) (due : p.terminated = true ∨ g.due ≤ p.now)
    (once : expiries g.crew (history ++ stamp p.now o.2) = [p.now])
  | same (before : g ∈ grants history)
    (same : expiries g.crew (history ++ stamp p.now o.2) = expiries g.crew history)

theorem Matched.fate (h : Matched p history) (turn : Boosting p o) {g : Grant}
    (hg : g ∈ grants (history ++ stamp p.now o.2)) : Fate p o history g := by
  cases turn with
  | grant push observed number runs granted boost boosts crews now told =>
      obtain ⟨-, hgrants, hexpiries⟩ :=
        told_grant h.told p.now push number p.crews observed p.boost.lifetime
      rw [← told] at hgrants hexpiries
      rw [hgrants, List.mem_append, List.mem_singleton] at hg
      rcases hg with hg | rfl
      · exact Fate.same hg (hexpiries _)
      · exact Fate.granted runs now (Nat.le_add_right _ _) ((hexpiries _).trans h.fresh.2)
  | expire d known due boost boosts crews now told =>
      obtain ⟨b, hb, rfl⟩ := h.outstanding_of_mem known
      obtain ⟨-, hgrants, hexpiries⟩ := told_expiry h.told p.now b.crew
      change o.2 = [.boostExpired b.crew] at told
      rw [← told] at hgrants hexpiries
      rw [hgrants] at hg
      obtain ⟨hbgrant, hbopen⟩ := mem_outstanding.mp hb
      by_cases hcrew : b.crew = g.crew
      · obtain rfl := List.inj_on_of_nodup_map h.nodup hbgrant hg hcrew
        refine Fate.ended hb due ?_
        rw [hexpiries, hbopen, if_pos rfl]
        rfl
      · refine Fate.same hg ?_
        rw [hexpiries, if_neg hcrew, List.append_nil]
  | breakOff push observed overflow boost boosts crews told =>
      obtain ⟨-, hgrants, hexpiries⟩ := told_boostless h.told p.now (boostless_pushBroke push)
      rw [← told] at hgrants hexpiries
      rw [hgrants] at hg
      exact Fate.same hg (hexpiries _)
  | keep unturned =>
      obtain ⟨-, hgrants, hexpiries⟩ :=
        told_boostless h.told p.now (boostless_of_calm unturned.calm)
      rw [hgrants] at hg
      exact Fate.same hg (hexpiries _)

end Matching

section Times

variable {config : Config} {start itemBytes : Nat} {p : Pool α} {labels : List (Label α)}
  {history : List (Nat × Event α)}

/-- Each boost has ended once at most, and not before it had to. -/
def NotEarly (halt : Option Nat) (p : Pool α) (history : List (Nat × Event α)) : Prop :=
  ∀ g ∈ grants history, expiries g.crew history = [] ∨
    ∃ t, expiries g.crew history = [t] ∧ g.ends halt ≤ t ∧ t ≤ p.now

/-- Each boost ends once, exactly when it has to. -/
def Punctual (halt : Option Nat) (p : Pool α) (history : List (Nat × Event α)) : Prop :=
  ∀ g ∈ grants history, expiries g.crew history = [] ∧ p.now ≤ g.ends halt ∨
    expiries g.crew history = [g.ends halt]

/-- What a pool and its controller know of the boosts is what has been told of them. -/
structure Reckoned (config : Config) (start : Nat) (p : Pool α) (labels : List (Label α))
    (history : List (Nat × Event α)) : Prop where
  clocked : Clocked start p labels
  matched : Matched p history
  active : p.boost.active = p.boosts.length
  informed : ∃ events, p.boost = (Boost.Controller.ofConfig config).run events ∧
    (Boost.Controller.ofConfig config).turns events = turns (history.map Prod.snd)
  level : (Boost.tally (turns (history.map Prod.snd))).level =
    p.boosts.length + (brokenOff history).length
  notEarly : NotEarly (terminatedAt start labels) p history

theorem reckoned_new (config : Config) (start itemBytes : Nat) :
    Reckoned config start (new config start itemBytes : Pool α) [] [] where
  clocked := ⟨rfl, by simp [terminatedAt, new], by simp [terminatedAt]⟩
  matched := ⟨nofun, rfl, List.nodup_nil, nofun, fun _ h => absurd rfl h⟩
  active := rfl
  informed := ⟨[], rfl, rfl⟩
  level := rfl
  notEarly := nofun

theorem Reckoned.notEarly_next (h : Reckoned config start p labels history) {label : Label α}
    {o : Outcome α} (ho : p.step label = some o) :
    NotEarly (terminatedAt start (labels ++ [label])) o.1 (history ++ stamp p.now o.2) := by
  have hlater := (step_elapses ho).later
  have hforward (g : Grant) : g.ends (terminatedAt start (labels ++ [label])) ≤
      g.ends (terminatedAt start labels) := by
    rw [h.clocked.terminatedAt_snoc]
    exact g.ends_or_le _ _
  intro g hg
  cases h.matched.fate (step_boosting ho) hg with
  | granted runs now due none_yet => exact Or.inl none_yet
  | ended before due once =>
      exact Or.inr ⟨p.now, once, (hforward g).trans ((h.clocked.ends_le g).mpr due), hlater⟩
  | same before same =>
      rw [same]
      refine (h.notEarly g before).imp id ?_
      rintro ⟨t, hone, hdue, hle⟩
      exact ⟨t, hone, (hforward g).trans hdue, hle.trans hlater⟩

theorem turns_stamp (history : List (Nat × Event α)) (now : Nat) (events : List (Event α)) :
    turns ((history ++ stamp now events).map Prod.snd) =
      turns (history.map Prod.snd) ++ turns events := by
  have hstamp : (stamp now events).map Prod.snd = events := by simp [stamp, Function.comp_def]
  rw [List.map_append, hstamp]
  exact List.filterMap_append

theorem brokenOff_of_calm {events : List (Event α)} (now : Nat) (calm : turns events = []) :
    brokenOff (stamp now events) = [] := by
  rw [brokenOff, List.filterMap_eq_nil_iff]
  intro h hh
  obtain ⟨e, he, rfl⟩ := List.mem_map.mp hh
  have hquiet := List.filterMap_eq_nil_iff.mp calm e he
  cases e with
  | pushBroke => cases hquiet
  | _ => rfl

/-- Of the doublings that are left each belongs to a boost whose end is to come, or to a push that
broke off. -/
theorem Reckoned.level_next (h : Reckoned config start p labels history) {o : Outcome α}
    (turn : Boosting p o) :
    (Boost.tally (turns ((history ++ stamp p.now o.2).map Prod.snd))).level =
      o.1.boosts.length + (brokenOff (history ++ stamp p.now o.2)).length := by
  have hlevel := h.level
  rw [turns_stamp, brokenOff_append, List.length_append]
  cases turn with
  | grant push observed number runs granted boost boosts crews now told =>
      rw [told, boosts, List.length_append]
      change (Boost.tally (_ ++ [.granted])).level = _ + 1 + (_ + 0)
      rw [Boost.tally_append]
      dsimp only [Boost.Tally.next]
      omega
  | expire d known due boost boosts crews now told =>
      have hsome : 0 < p.boosts.length := List.length_pos_of_mem known
      rw [told, boosts, List.length_erase_of_mem known]
      change (Boost.tally (_ ++ [.expired])).level = _ + (_ + 0)
      rw [Boost.tally_append]
      dsimp only [Boost.Tally.next]
      omega
  | breakOff push observed overflow boost boosts crews told =>
      rw [told, boosts]
      change (Boost.tally (_ ++ [.overran])).level = _ + (_ + 1)
      rw [Boost.tally_append]
      dsimp only [Boost.Tally.next]
      omega
  | keep unturned =>
      rw [unturned.calm, unturned.boosts, brokenOff_of_calm p.now unturned.calm, List.append_nil]
      exact hlevel

theorem Reckoned.next (h : Reckoned config start p labels history) {label : Label α}
    {o : Outcome α} (ho : p.step label = some o) :
    Reckoned config start o.1 (labels ++ [label]) (history ++ stamp p.now o.2) := by
  have turn := step_boosting ho
  constructor
  · exact h.clocked.next ho
  · exact h.matched.next turn
  · exact turn.active h.active
  · obtain ⟨events, hboost, hturns⟩ := h.informed
    obtain ⟨more, hmore, hnext⟩ := turn.informed
    refine ⟨events ++ more, ?_, ?_⟩
    · rw [Boost.Controller.run_append, ← hboost, hnext]
    · rw [Boost.Controller.turns_append, ← hboost, hturns, hmore, turns_stamp]
  · exact h.level_next turn
  · exact h.notEarly_next ho

theorem reckoned_of_replay (h : (new config start itemBytes).replay labels = some (p, history)) :
    Reckoned config start p labels history := by
  have hany : (new config start itemBytes : Pool α).Allows AnyStep labels :=
    allows_of_forall (fun _ _ _ => trivial) _
  exact replay_keeps (fun _ _ _ _ _ _ kept _ hstep => kept.next hstep)
    (reckoned_new config start itemBytes) hany h

/-- Time has passed the end of no outstanding boost, if it did not before the step. -/
theorem Reckoned.now_le_ends (h : Reckoned config start p labels history) {label : Label α}
    (onTime : OnTime p label) {o : Outcome α} (ho : p.step label = some o) {g : Grant}
    (hg : g ∈ outstanding history) (hle : p.now ≤ g.ends (terminatedAt start labels)) :
    o.1.now ≤ g.ends (terminatedAt start labels) := by
  have hnow := (step_elapses ho).now
  cases label with
  | tick later =>
      have hkept : g.deadline ∈ p.boosts := by
        rw [h.matched.boosts]
        exact List.mem_map_of_mem hg
      obtain ⟨hnone, hdue⟩ := onTime later rfl g.deadline hkept
      have hgoes : terminatedAt start labels = none := by
        rw [← Option.not_isSome_iff_eq_none, h.clocked.ended]
        intro hover
        have hsome := (h.matched.expireBoost_isSome g.crew).mpr ⟨g, hg, rfl, Or.inl hover⟩
        change p.expireBoost g.crew = none at hnone
        rw [hnone] at hsome
        cases hsome
      rw [hgoes, hnow]
      exact hdue
  | _ => exact hnow ▸ hle

/-- Where no end is late, a boost ends when it has to. -/
theorem Reckoned.punctual_next (h : Reckoned config start p labels history)
    (punctual : Punctual (terminatedAt start labels) p history) {label : Label α}
    (onTime : OnTime p label) {o : Outcome α} (ho : p.step label = some o) :
    Punctual (terminatedAt start (labels ++ [label])) o.1 (history ++ stamp p.now o.2) := by
  have hsame {g : Grant} (hpast : g.ends (terminatedAt start labels) ≤ p.now) :
      g.ends (terminatedAt start (labels ++ [label])) = g.ends (terminatedAt start labels) := by
    rw [h.clocked.terminatedAt_snoc]
    refine le_antisymm (g.ends_or_le _ _) (Grant.le_ends_or le_rfl fun m hm => ?_)
    rwa [(eq_now_of_terminatedAt hm).2]
  have hahead {g : Grant} (hle : o.1.now ≤ g.ends (terminatedAt start labels)) :
      o.1.now ≤ g.ends (terminatedAt start (labels ++ [label])) := by
    rw [h.clocked.terminatedAt_snoc]
    refine Grant.le_ends_or hle fun m hm => ?_
    obtain ⟨rfl, rfl⟩ := eq_now_of_terminatedAt hm
    exact (step_elapses ho).now.le
  intro g hg
  cases h.matched.fate (step_boosting ho) hg with
  | granted runs now due none_yet =>
      refine Or.inl ⟨none_yet, hahead ?_⟩
      have hgoes : terminatedAt start labels = none := by
        rw [← Option.not_isSome_iff_eq_none, h.clocked.ended, runs]
        exact Bool.false_ne_true
      rw [hgoes, now]
      exact due
  | ended before due once =>
      obtain ⟨hgrant, hopen⟩ := mem_outstanding.mp before
      have hpast := (h.clocked.ends_le g).mpr due
      have hnow : p.now ≤ g.ends (terminatedAt start labels) := by
        rcases punctual g hgrant with ⟨-, hle⟩ | hended
        · exact hle
        · rw [hopen] at hended
          cases hended
      rw [hsame hpast, once, le_antisymm hpast hnow]
      exact Or.inr rfl
  | same before same =>
      rw [same]
      rcases punctual g before with ⟨hopen, hle⟩ | hended
      · have hstill := mem_outstanding.mpr ⟨before, hopen⟩
        exact Or.inl ⟨hopen, hahead (h.now_le_ends onTime ho hstill hle)⟩
      · have hpast : g.ends (terminatedAt start labels) ≤ p.now := by
          rcases h.notEarly g before with hopen | ⟨t, hone, hdue, hle⟩
          · rw [hopen] at hended
            cases hended
          · exact hdue.trans hle
        rw [hsame hpast]
        exact Or.inr hended

/-- A boost is granted with the lifetime that boosts have then. -/
theorem step_grants {label : Label α} {o : Outcome α} (ho : p.step label = some o) {g : Grant}
    (hg : g ∈ grants (stamp p.now o.2)) : g.time = p.now ∧ g.lifetime = p.boost.lifetime := by
  cases step_boosting ho with
  | grant push observed number runs granted boost boosts crews now told =>
      rw [told] at hg
      obtain rfl := List.mem_singleton.mp hg
      exact ⟨rfl, rfl⟩
  | expire d known due boost boosts crews now told =>
      rw [told] at hg
      cases hg
  | breakOff push observed overflow boost boosts crews told =>
      rw [told] at hg
      cases hg
  | keep unturned =>
      rw [(boostless_of_calm unturned.calm).grants p.now] at hg
      cases hg

theorem Reckoned.idle (h : Reckoned config start p labels history) (hnone : p.boost.active = 0) :
    p.boost.phase = .idle ∧ (brokenOff history = [] → p.boost.block = config.blockTimeout) := by
  refine ⟨if_pos hnone, fun hwhole => ?_⟩
  obtain ⟨events, hboost, hturns⟩ := h.informed
  obtain ⟨hbounded, hbase⟩ := Boost.bounded_run_ofConfig config events
  rw [← hboost] at hbounded hbase
  rw [hturns] at hbounded
  have hundone := h.level
  rw [← h.active, hnone, hwhole] at hundone
  exact (hbounded.block_eq_base hundone).trans hbase

theorem Reckoned.block_eq (h : Reckoned config start p labels history) {events : List Boost.Event}
    (boost : p.boost = (Boost.Controller.ofConfig config).run events)
    (turned : (Boost.Controller.ofConfig config).turns events = turns (history.map Prod.snd))
    (uncut : (Boost.Controller.ofConfig config).Uncut events) :
    p.boost.block.nanos =
      config.blockTimeout.nanos * 2 ^ (p.boost.active + (brokenOff history).length) := by
  have hblock := Boost.block_eq_of_uncut uncut
  rwa [turned, h.level, ← boost, ← h.active] at hblock

theorem punctual_of_replay (h : (new config start itemBytes).replay labels = some (p, history))
    (onTime : (new config start itemBytes : Pool α).Allows OnTime labels) :
    Punctual (terminatedAt start labels) p history := by
  -- What ends on time does so only if the pool keeps the ends, so both are carried along.
  let holds (p : Pool α) (labels : List (Label α)) (history : List (Nat × Event α)) : Prop :=
    Reckoned config start p labels history ∧ Punctual (terminatedAt start labels) p history
  have hboth : holds p ([] ++ labels) ([] ++ history) := by
    refine replay_keeps ?_ ⟨reckoned_new config start itemBytes, nofun⟩ onTime h
    rintro p labels history label q events ⟨kept, punctual⟩ hmay hstep
    exact ⟨kept.next hstep, kept.punctual_next punctual hmay hstep⟩
  exact hboth.2

/-- Boosts and their ends are matched one to one, whatever is done to the pool and to the crews of
its boosts. The controller has been told exactly of the boosts that were granted, of the ends that
were told and of the pushes that broke off, in that order, and the boosts it counts as active are
those without an end. As long as no doubling is cut off, the block timeout is the configured one
doubled for each of them and for each push that broke off. Every end is that of a boost that was
granted. A boost ends at most once, and not before its lifetime has passed or the pool has been
terminated; its end can be told from then on until it has been, and where no end is late it is told
exactly then. The lifetime is the one that boosts have when it is granted. So where nothing can go
on, and the pool has been terminated or all lifetimes have passed, the phase is idle; and the block
timeout is the configured one if no push has broken off. -/
theorem boosts_end_once (h : (new config start itemBytes).replay labels = some (p, history)) :
    let halt := terminatedAt start labels
    (∃ events, p.boost = (Boost.Controller.ofConfig config).run events ∧
      (Boost.Controller.ofConfig config).turns events = turns (history.map Prod.snd) ∧
      ((Boost.Controller.ofConfig config).Uncut events → p.boost.block.nanos =
        config.blockTimeout.nanos * 2 ^ (p.boost.active + (brokenOff history).length))) ∧
    p.boost.active = (outstanding history).length ∧
    ((grants history).map Grant.crew).Nodup ∧
    (∀ crew, expiries crew history ≠ [] → ∃ g ∈ grants history, g.crew = crew) ∧
    (∀ g ∈ grants history, expiries g.crew history = [] ∨
      ∃ t, expiries g.crew history = [t] ∧ g.ends halt ≤ t ∧ t ≤ p.now) ∧
    (∀ crew, (p.step (.expireBoost crew)).isSome ↔
      ∃ g ∈ outstanding history, g.crew = crew ∧ g.ends halt ≤ p.now) ∧
    ((new config start itemBytes).Allows OnTime labels → ∀ g ∈ grants history,
      expiries g.crew history = [] ∧ p.now ≤ g.ends halt ∨
        expiries g.crew history = [g.ends halt]) ∧
    (∀ label q events, p.step label = some (q, events) → ∀ g ∈ grants (stamp p.now events),
      g.time = p.now ∧ g.lifetime = p.boost.lifetime) ∧
    (p.Resting → p.terminated = true ∨ (∀ g ∈ grants history, g.due ≤ p.now) →
      p.boost.phase = .idle ∧
        (brokenOff history = [] → p.boost.block = config.blockTimeout)) := by
  intro halt
  have kept := reckoned_of_replay h
  have hactive : p.boost.active = (outstanding history).length := by
    rw [kept.active, kept.matched.boosts, List.length_map]
  have hready (crew : Nat) : (p.step (.expireBoost crew)).isSome ↔
      ∃ g ∈ outstanding history, g.crew = crew ∧ g.ends halt ≤ p.now := by
    simp only [halt, kept.clocked.ends_le]
    exact kept.matched.expireBoost_isSome crew
  have hinformed : ∃ events, p.boost = (Boost.Controller.ofConfig config).run events ∧
      (Boost.Controller.ofConfig config).turns events = turns (history.map Prod.snd) ∧
      ((Boost.Controller.ofConfig config).Uncut events → p.boost.block.nanos =
        config.blockTimeout.nanos * 2 ^ (p.boost.active + (brokenOff history).length)) := by
    obtain ⟨events, hboost, hturns⟩ := kept.informed
    exact ⟨events, hboost, hturns, kept.block_eq hboost hturns⟩
  refine ⟨hinformed, hactive, kept.matched.nodup, kept.matched.granted, kept.notEarly, hready,
    punctual_of_replay h, ?_, ?_⟩
  · intro label q events hstep g hg
    exact step_grants hstep hg
  · intro resting hover
    have hnone : outstanding history = [] := by
      refine List.eq_nil_iff_forall_not_mem.mpr fun g hg => ?_
      have hdue : p.terminated = true ∨ g.due ≤ p.now :=
        hover.imp id fun hall => hall g (mem_outstanding.mp hg).1
      have hsome := (hready g.crew).mpr ⟨g, hg, rfl, (kept.clocked.ends_le g).mpr hdue⟩
      rw [resting (.expireBoost g.crew) rfl] at hsome
      cases hsome
    refine kept.idle ?_
    rw [hactive, hnone, List.length_nil]

end Times

/-- Room for one item, batches of one, and boosts of two workers for 100 ns. -/
def endingConfig : Config where
  queueLength := 1
  batchLength := 1
  blockTimeout := .ofNanos 10
  boostTimeout := .ofNanos 100
  boostWorkers := 2

/-- Two boosts. The crew of the first is stopped at once; the lifetime changes before the second,
whose only worker panics and which ends in time; then the pool is terminated, and the first ends. -/
def endingSteps : List (Label Nat) :=
  [.push 10 false, .push 20 false, .tick 10, .resume 1, .stopCrew 0, .work 0, .work 1,
    .manage 1 none (.ofNanos 50), .push 30 false, .tick 30, .resume 2, .work 2, .finish 2 true,
    .tick 80, .expireBoost 1, .tick 90, .terminate, .expireBoost 0, .resume 1, .resume 2]

theorem boosts_end_once_stopped : ∃ (p : Pool Nat) (history : List (Nat × Event Nat)),
    (new endingConfig 0 8).replay endingSteps = some (p, history) ∧
    (new endingConfig 0 8 : Pool Nat).Allows OnTime endingSteps ∧
    grants history = [⟨0, 10, .ofNanos 100⟩, ⟨1, 30, .ofNanos 50⟩] ∧
    terminatedAt 0 endingSteps = some 90 ∧
    expiries 0 history = [90] ∧ expiries 1 history = [80] ∧
    brokenOff history = [] ∧ p.boost.phase = .idle ∧
    p.boost.block = endingConfig.blockTimeout := by
  have h : (new endingConfig 0 8 : Pool Nat).replay endingSteps = some (_, _) := rfl
  have onTime : (new endingConfig 0 8 : Pool Nat).Allows OnTime endingSteps := by decide
  obtain ⟨-, -, -, -, -, -, hexact, -, hidle⟩ := boosts_end_once h
  obtain ⟨hphase, hblock⟩ := hidle (by decide) (Or.inl (by decide))
  have hfirst := hexact onTime ⟨0, 10, .ofNanos 100⟩ (by decide)
  have hsecond := hexact onTime ⟨1, 30, .ofNanos 50⟩ (by decide)
  exact ⟨_, _, h, onTime, by decide, by decide, hfirst.resolve_left (by decide),
    hsecond.resolve_left (by decide), by decide, hphase, hblock (by decide)⟩

/-- Room for one item, batches of one, and boosts of as many workers as a word can count. -/
def teemingConfig : Config where
  queueLength := 1
  batchLength := 1
  blockTimeout := .ofMillis 50
  boostTimeout := .ofMillis 200
  boostWorkers := 18446744073709551615

/-- A worker is there while a push stays blocked: with it the boost is one too many to be counted.
The pool is terminated, and the worker hands over what is left. -/
def teemingSteps : List (Label Nat) :=
  [.addWorkers 1 none, .push 10 false, .work 0, .push 20 false, .push 30 false, .tick 50000000,
    .resume 2, .terminate, .finish 0 false, .work 0, .finish 0 false]

/-- A terminated pool can come to rest with a block timeout that is not the configured one. -/
theorem block_left_doubled_at_rest :
    ¬ ∀ (config : Config) (start itemBytes : Nat) (labels : List (Label Nat)) (p : Pool Nat)
        (history : List (Nat × Event Nat)),
      (new config start itemBytes).replay labels = some (p, history) → p.terminated = true →
      p.Resting → p.boost.phase = .idle ∧ p.boost.block = config.blockTimeout := by
  intro h
  have hblock := h teemingConfig 0 8 teemingSteps _ _ rfl (by decide) (by decide)
  revert hblock
  decide

end Coordination.Pool
