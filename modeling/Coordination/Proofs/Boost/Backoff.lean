import Coordination.Proofs.Boost.Phase
import Coordination.Proofs.Boost.Words

/-!
Bounds of the block timeout. A doubling may be cut off at the longest span and a halving rounds
down, so the timeout does not tell how often it was doubled. What holds after any events, also
when boosts end that are not active, is that it lies between its base and the base doubled for
every doubling that is left. As long as every boost could be counted these are the active boosts:
without any the two bounds meet, and the timeout is back at its base. A call that breaks off leaves
a doubling that belongs to no boost.
-/

namespace Coordination.Boost

/-- The block timeout is between its bounds, and without active boosts it is its own peak. -/
structure Bounded (s : Controller) (t : Tally) : Prop where
  active : s.active = t.active
  base_le : s.base.nanos ≤ s.block.nanos
  le_doubled : s.block.nanos ≤ s.base.nanos * 2 ^ t.level
  le_peak : s.block.nanos ≤ s.peak.nanos
  at_rest : s.active = 0 → s.peak = s.block

theorem bounded_ofConfig (config : Pool.Config) : Bounded (Controller.ofConfig config) {} where
  active := rfl
  base_le := le_rfl
  le_doubled := by simp [Controller.ofConfig]
  le_peak := le_rfl
  at_rest := fun _ => rfl

/-- Where no doubling is left the bounds meet. -/
theorem Bounded.block_eq_base {s : Controller} {t : Tally} (h : Bounded s t)
    (undone : t.level = 0) : s.block = s.base := by
  have hhigh := h.le_doubled
  rw [undone, pow_zero, mul_one] at hhigh
  exact Duration.ext_nanos (le_antisymm hhigh h.base_le)

theorem Bounded.quiet {s r : Controller} {t : Tally} (h : Bounded s t) (hblock : r.block = s.block)
    (hbase : r.base = s.base) (hpeak : r.peak = s.peak) (hactive : r.active = s.active) :
    Bounded r t := by
  obtain ⟨ha, hlow, hhigh, hle, hrest⟩ := h
  constructor
  · rw [hactive, ha]
  · rw [hbase, hblock]
    exact hlow
  · rw [hbase, hblock]
    exact hhigh
  · rw [hblock, hpeak]
    exact hle
  · intro hzero
    rw [hpeak, hblock]
    exact hrest (hactive ▸ hzero)

/-- A doubling that is cut off stays between the bounds, since no span is longer. -/
theorem le_double (d : Duration) : d.nanos ≤ d.double.nanos := by
  have hmax := d.le_max
  rw [Duration.nanos_double]
  omega

/-- A doubled timeout, however many boosts are active and however many workers are counted. -/
theorem Bounded.escalate {s : Controller} {t : Tally} (h : Bounded s t) :
    s.base.nanos ≤ s.escalate.block.nanos ∧
      s.escalate.block.nanos ≤ s.base.nanos * 2 ^ (t.level + 1) ∧
      s.escalate.block.nanos ≤ s.escalate.peak.nanos ∧
      (s.active = 0 → s.escalate.peak = s.escalate.block) := by
  have hgrows : s.block.nanos ≤ s.block.double.nanos := le_double s.block
  have hpeak : s.escalate.peak.nanos = max s.peak.nanos s.block.double.nanos :=
    Duration.nanos_max _ _
  refine ⟨le_trans h.base_le hgrows, ?_, ?_, ?_⟩
  · have htwice : s.block.double.nanos ≤ 2 * s.block.nanos := by
      rw [Duration.nanos_double]
      exact min_le_left _ _
    calc s.block.double.nanos ≤ 2 * s.block.nanos := htwice
      _ ≤ 2 * (s.base.nanos * 2 ^ t.level) := Nat.mul_le_mul_left 2 h.le_doubled
      _ = s.base.nanos * 2 ^ (t.level + 1) := by ring
  · rw [hpeak]
    exact le_max_right _ _
  · intro hzero
    apply Duration.ext_nanos
    rw [hpeak, h.at_rest hzero]
    exact max_eq_right hgrows

/-- Half of a base that was doubled `n` times is the base doubled once less, and never less than
the base, also when it was not doubled at all. -/
theorem max_half_doubled (base n : Nat) : max (base * 2 ^ n / 2) base = base * 2 ^ (n - 1) := by
  cases n with
  | zero =>
      rw [pow_zero, mul_one]
      exact max_eq_right (Nat.div_le_self base 2)
  | succ n =>
      have htwice : base * 2 ^ (n + 1) / 2 = base * 2 ^ n := by
        rw [pow_succ, ← mul_assoc, Nat.mul_div_cancel _ two_pos]
      rw [htwice, Nat.add_sub_cancel]
      exact max_eq_left (Nat.le_mul_of_pos_right base (Nat.two_pow_pos n))

theorem nanos_expired (s : Controller) :
    s.expired.block.nanos = max (s.block.nanos / 2) s.base.nanos := by
  change (max s.block.half s.base).nanos = _
  rw [Duration.nanos_max, Duration.nanos_half]

theorem Bounded.expired_le {s : Controller} {t : Tally} (h : Bounded s t) :
    s.expired.block.nanos ≤ s.block.nanos := by
  have hlow := h.base_le
  rw [nanos_expired]
  omega

theorem Bounded.expired {s : Controller} {t : Tally} (h : Bounded s t) :
    Bounded s.expired (t.next .expired) := by
  constructor
  · exact congrArg (· - 1) h.active
  · rw [nanos_expired]
    exact le_max_right _ _
  · have hhalf : s.block.nanos / 2 ≤ s.base.nanos * 2 ^ t.level / 2 :=
      Nat.div_le_div_right h.le_doubled
    rw [nanos_expired]
    calc max (s.block.nanos / 2) s.base.nanos
        ≤ max (s.base.nanos * 2 ^ t.level / 2) s.base.nanos := max_le_max_right _ hhalf
      _ = s.base.nanos * 2 ^ (t.level - 1) := max_half_doubled _ _
  · change _ ≤ (if s.active - 1 = 0 then s.expired.block else s.peak).nanos
    split
    · exact le_rfl
    · exact le_trans h.expired_le h.le_peak
  · intro hzero
    exact if_pos hzero

/-- What an event means for the timeouts: it doubles them, with a boost granted or without, it ends
a boost, or it leaves them alone. -/
theorem step_timeouts (s : Controller) (e : Event) :
    (s.turn? e = some .granted ∧ ∃ workers, (s.step e).1 =
      { s.escalate with workers, active := s.active + 1 }) ∨
    (s.turn? e = some .overran ∧ (s.step e).1 = s.escalate) ∨
    (e = .expired ∧ (s.step e).1 = s.expired) ∨
    (s.turn? e = none ∧ (s.step e).1.block = s.block ∧ (s.step e).1.base = s.base ∧
      (s.step e).1.peak = s.peak ∧ (s.step e).1.active = s.active) := by
  cases e with
  | blocked observed =>
      rcases blocked_cases s observed with ⟨hturn, hsame⟩ | ⟨-, ⟨hturn, hnew⟩ | ⟨hturn, hnew⟩⟩
      · right; right; right
        simp [Controller.step, hturn, hsame]
      · left
        exact ⟨hturn, _, hnew⟩
      · right; left
        exact ⟨hturn, hnew⟩
  | expired => exact Or.inr (Or.inr (Or.inl ⟨rfl, rfl⟩))
  | started n => exact Or.inr (Or.inr (Or.inr ⟨rfl, started_timeouts s n⟩))
  | stopped | setMaxWorkers | manage =>
      exact Or.inr (Or.inr (Or.inr ⟨rfl, rfl, rfl, rfl, rfl⟩))

theorem Bounded.step {s : Controller} {turns : List Turn} (h : Bounded s (tally turns))
    (e : Event) : Bounded (s.step e).1 (tally (turns ++ (s.turn? e).toList)) := by
  rcases step_timeouts s e with ⟨hturn, workers, hnew⟩ | ⟨hturn, hnew⟩ | ⟨rfl, hnew⟩ |
    ⟨hturn, hblock, hbase, hpeak, hactive⟩
  · obtain ⟨hlow, hhigh, hle, -⟩ := h.escalate
    rw [hnew, hturn, Option.toList_some, tally_append]
    exact ⟨congrArg (· + 1) h.active, hlow, hhigh, hle, nofun⟩
  · obtain ⟨hlow, hhigh, hle, hrest⟩ := h.escalate
    rw [hnew, hturn, Option.toList_some, tally_append]
    exact ⟨h.active, hlow, hhigh, hle, hrest⟩
  · rw [hnew, Controller.turn?, Option.toList_some, tally_append]
    exact h.expired
  · rw [hturn, Option.toList_none, List.append_nil]
    exact h.quiet hblock hbase hpeak hactive

theorem step_base (s : Controller) (e : Event) : (s.step e).1.base = s.base := by
  rcases step_timeouts s e with ⟨-, workers, hnew⟩ | ⟨-, hnew⟩ | ⟨-, hnew⟩ | ⟨-, -, hbase, -⟩
  · rw [hnew]
    rfl
  · rw [hnew]
    rfl
  · rw [hnew]
    rfl
  · exact hbase

theorem Bounded.run {s : Controller} {turns : List Turn} (h : Bounded s (tally turns))
    (events : List Event) :
    Bounded (s.run events) (tally (turns ++ s.turns events)) ∧ (s.run events).base = s.base := by
  induction events generalizing s turns with
  | nil => exact ⟨by simpa [Controller.turns] using h, rfl⟩
  | cons e rest ih =>
      obtain ⟨hbounded, hbase⟩ := ih (h.step e)
      rw [List.append_assoc] at hbounded
      exact ⟨hbounded, hbase.trans (step_base s e)⟩

/-- No doubling is cut off. -/
def Controller.Uncut (s : Controller) : List Event → Prop
  | [] => True
  | e :: es =>
    (s.doubles e → 2 * s.block.nanos ≤ Duration.maxNanos) ∧ (s.step e).1.Uncut es

instance Controller.decidableUncut (s : Controller) : (es : List Event) → Decidable (s.Uncut es)
  | [] => inferInstanceAs (Decidable True)
  | e :: es =>
    have : Decidable ((s.step e).1.Uncut es) := Controller.decidableUncut (s.step e).1 es
    inferInstanceAs (Decidable (_ ∧ (s.step e).1.Uncut es))

/-- Without a cut the timeout tells the doublings that are left, also after boosts have ended that
were not active. -/
theorem run_block_eq {s : Controller} {turns : List Turn}
    (h : s.block.nanos = s.base.nanos * 2 ^ (tally turns).level) {events : List Event}
    (uncut : s.Uncut events) :
    (s.run events).block.nanos =
      (s.run events).base.nanos * 2 ^ (tally (turns ++ s.turns events)).level := by
  induction events generalizing s turns with
  | nil => simpa [Controller.turns] using h
  | cons e rest ih =>
      obtain ⟨hroom, hrest⟩ := uncut
      rw [Controller.turns, ← List.append_assoc]
      apply ih _ hrest
      have hdouble (doubles : s.doubles e) :
          s.block.double.nanos = s.base.nanos * 2 ^ ((tally turns).level + 1) := by
        rw [Duration.nanos_double, Nat.min_eq_left (hroom doubles), h]
        ring
      rcases step_timeouts s e with ⟨hturn, workers, hnew⟩ | ⟨hturn, hnew⟩ | ⟨rfl, hnew⟩ |
        ⟨hturn, hblock, hbase, -⟩
      · rw [hnew, hturn, Option.toList_some, tally_append]
        exact hdouble (by simp [Controller.doubles, hturn])
      · rw [hnew, hturn, Option.toList_some, tally_append]
        exact hdouble (by simp [Controller.doubles, hturn])
      · rw [hnew, Controller.turn?, Option.toList_some, tally_append, nanos_expired, h]
        exact max_half_doubled _ _
      · rw [hturn, Option.toList_none, List.append_nil, hblock, hbase]
        exact h

/-- The bounds of a controller that was new before these events. -/
theorem bounded_run_ofConfig (config : Pool.Config) (events : List Event) :
    Bounded ((Controller.ofConfig config).run events)
        (tally ((Controller.ofConfig config).turns events)) ∧
      ((Controller.ofConfig config).run events).base = config.blockTimeout := by
  have hstart : Bounded (Controller.ofConfig config) (tally []) := bounded_ofConfig config
  exact hstart.run events

theorem block_eq_of_uncut {config : Pool.Config} {events : List Event}
    (uncut : (Controller.ofConfig config).Uncut events) :
    ((Controller.ofConfig config).run events).block.nanos =
      config.blockTimeout.nanos * 2 ^
        (tally ((Controller.ofConfig config).turns events)).level := by
  have hstart : (Controller.ofConfig config).block.nanos =
      (Controller.ofConfig config).base.nanos * 2 ^ (tally []).level := by
    simp [Controller.ofConfig, tally]
  rw [← (bounded_run_ofConfig config events).2]
  exact run_block_eq hstart uncut

/-- A turn that doubles the timeout is the answer to a blocked push. -/
theorem turn_doubles {s : Controller} {e : Event} (h : s.doubles e) :
    ∃ observed, e = .blocked observed ∧
      ((∃ workers lifetime, (s.step e).2 = some (.boost workers lifetime)) ∨
        (s.step e).2 = some .overflow) := by
  cases e with
  | blocked observed =>
      refine ⟨observed, rfl, ?_⟩
      cases hanswer : (s.blocked observed).2 with
      | boost workers lifetime => exact Or.inl ⟨workers, lifetime, congrArg some hanswer⟩
      | overflow => exact Or.inr (congrArg some hanswer)
      | disabled | alreadyEscalated | atCapacity =>
          simp [Controller.doubles, Controller.turn?, hanswer] at h
  | expired | started | stopped | setMaxWorkers | manage =>
      simp [Controller.doubles, Controller.turn?] at h

theorem block_rises {s : Controller} {t : Tally} (h : Bounded s t) {e : Event}
    (hrise : s.block < (s.step e).1.block) : s.doubles e := by
  rw [Duration.lt_iff] at hrise
  rcases step_timeouts s e with ⟨hturn, -⟩ | ⟨hturn, -⟩ | ⟨-, hnew⟩ | ⟨-, hblock, -⟩
  · simp [Controller.doubles, hturn]
  · simp [Controller.doubles, hturn]
  · rw [hnew] at hrise
    exact absurd h.expired_le (not_le_of_gt hrise)
  · rw [hblock] at hrise
    exact absurd hrise (lt_irrefl _)

theorem block_falls {s : Controller} {e : Event} (hfall : (s.step e).1.block < s.block) :
    e = .expired := by
  rw [Duration.lt_iff] at hfall
  rcases step_timeouts s e with ⟨-, workers, hnew⟩ | ⟨-, hnew⟩ | ⟨hexpired, -⟩ | ⟨-, hblock, -⟩
  · rw [hnew] at hfall
    exact absurd (le_double s.block) (not_le_of_gt hfall)
  · rw [hnew] at hfall
    exact absurd (le_double s.block) (not_le_of_gt hfall)
  · exact hexpired
  · rw [hblock] at hfall
    exact absurd hfall (lt_irrefl _)

/-- There are as many doublings without a boost as calls have broken off, at most. -/
theorem level_le_tally (turns : List Turn) :
    (tally turns).level ≤ (tally turns).active + turns.count .overran := by
  induction turns using List.reverseRecOn with
  | nil => exact le_rfl
  | append_singleton turns turn ih =>
      rw [tally_append, List.count_append]
      cases turn <;> simp only [Tally.next, List.count_singleton] <;> simp <;> omega

/-- The ends of boosts undo the doublings one by one. -/
theorem level_ended (s : Controller) (turns : List Turn) (n : Nat) :
    (tally (turns ++ s.turns (List.replicate n .expired))).level = (tally turns).level - n := by
  induction n generalizing s turns with
  | zero => simp [Controller.turns]
  | succ n ih =>
      rw [List.replicate_succ, Controller.turns, ← List.append_assoc, ih, Controller.turn?,
        Option.toList_some, tally_append]
      exact Nat.sub_sub _ 1 n ▸ congrArg _ (Nat.add_comm 1 n)

/-- The block timeout after any events: not below its base, not above the base doubled for every
doubling that is left or the longest span, and not above its peak. So it is zero only if the base
is. As long as no doubling was cut off it is exactly the base doubled for each that is left. These
are the active boosts and at most one more for every call that has broken off. It rises only when a
boost is granted or a call breaks off, and falls only when a boost ends, which takes half of it away
as long as that is not below the base; and the ends of as many boosts as there are doublings bring
it back to its base. So if every boost could be counted, the timeout and its peak are the base
whenever no boost is active. -/
theorem block_within_bounds (config : Pool.Config) (events : List Event) :
    let base := config.blockTimeout
    let s := (Controller.ofConfig config).run events
    let turns := (Controller.ofConfig config).turns events
    let level := (tally turns).level
    base ≤ s.block ∧
    s.block.nanos ≤ min (base.nanos * 2 ^ level) Duration.maxNanos ∧
    s.block ≤ s.peak ∧
    (s.block = Duration.zero → base = Duration.zero) ∧
    ((Controller.ofConfig config).Uncut events → s.block.nanos = base.nanos * 2 ^ level) ∧
    (s.active ≤ level ∧ level ≤ s.active + turns.count .overran) ∧
    (.overran ∉ turns → level = s.active ∧ (s.active = 0 → s.block = base ∧ s.peak = base)) ∧
    (∀ e, s.block < (s.step e).1.block → ∃ observed, e = .blocked observed ∧
      ((∃ workers lifetime, (s.step e).2 = some (.boost workers lifetime)) ∨
        (s.step e).2 = some .overflow)) ∧
    (∀ e, (s.step e).1.block < s.block → e = .expired) ∧
    ((s.step .expired).1.active = s.active - 1 ∧
      (s.step .expired).1.block.nanos = max (s.block.nanos / 2) base.nanos) ∧
    ∀ n, level ≤ n → (s.run (List.replicate n .expired)).block = base := by
  intro base s turns level
  obtain ⟨hbounded, hbase⟩ : Bounded s (tally turns) ∧ s.base = base :=
    bounded_run_ofConfig config events
  have hlow : base.nanos ≤ s.block.nanos := hbase ▸ hbounded.base_le
  have hhigh : s.block.nanos ≤ base.nanos * 2 ^ level := hbase ▸ hbounded.le_doubled
  have hactive : s.active = (tally turns).active := hbounded.active
  refine ⟨hlow, le_min hhigh s.block.le_max, hbounded.le_peak, ?_, ?_, ?_, ?_, ?_, ?_, ?_, ?_⟩
  · intro hzero
    rw [hzero, Duration.nanos_zero] at hlow
    exact Duration.ext_nanos (Nat.le_zero.mp hlow)
  · exact block_eq_of_uncut
  · exact ⟨hactive ▸ (sound_tally turns).active_le, hactive ▸ level_le_tally turns⟩
  · intro counted
    have hlevel : level = s.active := (plain_tally counted).level_eq.trans hactive.symm
    refine ⟨hlevel, fun hrest => ?_⟩
    have hblock : s.block = base := (hbounded.block_eq_base (hlevel.trans hrest)).trans hbase
    exact ⟨hblock, (hbounded.at_rest hrest).trans hblock⟩
  · intro e hrise
    exact turn_doubles (block_rises hbounded hrise)
  · intro e hfall
    exact block_falls hfall
  · exact ⟨rfl, hbase ▸ nanos_expired s⟩
  · intro n hn
    obtain ⟨hback, hsame⟩ := hbounded.run (List.replicate n .expired)
    have hundone := (level_ended s turns n).trans (Nat.sub_eq_zero_of_le hn)
    exact (hback.block_eq_base hundone).trans (hsame.trans hbase)

/-- A doubling that is cut off leaves the timeout below the base doubled. -/
example : ((Controller.ofConfig
    { blockTimeout := Duration.longest, boostTimeout := .ofNanos 1, boostWorkers := 1 }).run
      [.blocked Duration.longest]).block = Duration.longest := by decide

/-- A block timeout of 7 ns and at most five workers. -/
def overrunConfig : Pool.Config where
  blockTimeout := .ofNanos 7
  boostTimeout := .ofNanos 1
  boostWorkers := 2
  maxWorkers := some 5

/-- Two boosts and three ends, then two more boosts and some workers that go away. -/
def overrunEvents : List Event :=
  [.blocked (.ofNanos 7), .blocked (.ofNanos 14), .expired, .expired, .expired,
    .blocked (.ofNanos 7), .stopped, .stopped, .blocked (.ofNanos 20)]

/-- The two boosts that are left take the timeout to 28 ns, and two ends bring it back. -/
theorem block_within_bounds_overrun :
    let start := Controller.ofConfig overrunConfig
    let s := start.run overrunEvents
    start.Uncut overrunEvents ∧ .overran ∉ start.turns overrunEvents ∧ s.active = 2 ∧
    s.block.nanos = 7 * 2 ^ 2 ∧ (s.run (List.replicate 2 .expired)).block = .ofNanos 7 := by
  intro start s
  have uncut : start.Uncut overrunEvents := by decide
  have counted : .overran ∉ start.turns overrunEvents := by decide
  obtain ⟨-, -, -, -, hexact, -, hcounted, -, -, -, hback⟩ :=
    block_within_bounds overrunConfig overrunEvents
  have hactive : s.active = 2 := by decide
  obtain ⟨hlevel, -⟩ := hcounted counted
  have hblock : s.block.nanos = 7 * 2 ^ 2 := by
    rw [hexact uncut, hlevel, hactive]
    rfl
  exact ⟨uncut, counted, hactive, hblock, hback 2 (by rw [hlevel, hactive])⟩

/-- As many workers as a word can count are there, and a push stays blocked: no boost is active, and
yet the timeout and its peak are twice their base. -/
theorem block_stuck_above_base :
    ¬ ∀ (config : Pool.Config) (events : List Event), (∀ e ∈ events, e.InWords) →
      let s := (Controller.ofConfig config).run events
      s.active = 0 → s.block = config.blockTimeout ∧ s.peak = config.blockTimeout := by
  intro h
  have hback := h boundlessConfig [.started (wordSize - 1), .blocked (.ofMillis 50)] (by decide)
    (by decide)
  revert hback
  decide

end Coordination.Boost
