import Mathlib.Data.List.Induction
import Mathlib.Tactic.Ring
import Coordination.Proofs.Boost.Decision

/-!
The phase of a boost controller against what it is meant to tell: whether a boost has expired since
the last one was granted. The controller does not remember that. It compares its block timeout with
the highest one since no boost was active, and as long as no doubling is cut off this compares the
doublings that have not been undone with the most there were at a time. A boost granted on the way
down, below the highest number, is therefore not told as one.
-/

namespace Coordination.Boost

inductive Turn where
  | granted
  | expired
  /-- The timeout was doubled for a boost that could not be counted. -/
  | overran
  deriving DecidableEq, Repr

/-- What a controller answers to a blocked push makes a turn, and so does the end of a boost. -/
def Controller.turn? (s : Controller) : Event → Option Turn
  | .blocked observed =>
    match (s.blocked observed).2 with
    | .boost _ _ => some .granted
    | .overflow => some .overran
    | _ => none
  | .expired => some .expired
  | _ => none

def Controller.turns (s : Controller) : List Event → List Turn
  | [] => []
  | e :: es => (s.turn? e).toList ++ (s.step e).1.turns es

theorem Controller.turns_append (s : Controller) (es fs : List Event) :
    s.turns (es ++ fs) = s.turns es ++ (s.run es).turns fs := by
  induction es generalizing s with
  | nil => rfl
  | cons e es ih => simp only [List.cons_append, Controller.turns, ih, run_cons, List.append_assoc]

structure Tally where
  active : Nat := 0
  /-- The last boost to be granted or to expire has expired. -/
  ending : Bool := false
  /-- Doublings that no end of a boost has undone. -/
  level : Nat := 0
  /-- The highest level since no boost was active. -/
  highest : Nat := 0
  deriving DecidableEq, Repr

def Tally.next (t : Tally) : Turn → Tally
  | .granted => ⟨t.active + 1, false, t.level + 1, max t.highest (t.level + 1)⟩
  | .expired =>
    ⟨t.active - 1, true, t.level - 1, if t.active - 1 = 0 then t.level - 1 else t.highest⟩
  | .overran => { t with level := t.level + 1, highest := max t.highest (t.level + 1) }

def tally (turns : List Turn) : Tally := turns.foldl Tally.next {}

theorem tally_append (turns : List Turn) (turn : Turn) :
    tally (turns ++ [turn]) = (tally turns).next turn := by
  simp [tally]

/-- There are at least as many doublings as boosts, and without a boost their number is the highest
since then. -/
structure Tally.Sound (t : Tally) : Prop where
  active_le : t.active ≤ t.level
  level_le : t.level ≤ t.highest
  at_rest : t.active = 0 → t.highest = t.level

theorem sound_tally (turns : List Turn) : (tally turns).Sound := by
  induction turns using List.reverseRecOn with
  | nil => exact ⟨le_rfl, le_rfl, fun _ => rfl⟩
  | append_singleton turns turn ih =>
      obtain ⟨hactive, hlevel, hrest⟩ := ih
      rw [tally_append]
      cases turn with
      | granted =>
          exact ⟨Nat.succ_le_succ hactive, le_max_right _ _, nofun⟩
      | expired =>
          refine ⟨Nat.sub_le_sub_right hactive 1, ?_, fun hzero => if_pos hzero⟩
          dsimp only [Tally.next]
          split <;> omega
      | overran =>
          refine ⟨Nat.le_succ_of_le hactive, le_max_right _ _, fun hzero => ?_⟩
          have hhighest := hrest hzero
          dsimp only [Tally.next]
          omega

/-- As long as every boost could be counted, the doublings are the active boosts, and after the end
of a boost fewer are active than were at a time. -/
structure Tally.Plain (t : Tally) : Prop where
  level_eq : t.level = t.active
  ending_lt : t.ending = true → 0 < t.active → t.active < t.highest

theorem plain_tally {turns : List Turn} (counted : .overran ∉ turns) : (tally turns).Plain := by
  induction turns using List.reverseRecOn with
  | nil => exact ⟨rfl, nofun⟩
  | append_singleton turns turn ih =>
      simp only [List.mem_append, List.mem_singleton, not_or] at counted
      obtain ⟨hlevel, hending⟩ := ih counted.1
      have hsound := (sound_tally turns).level_le
      rw [tally_append]
      cases turn with
      | granted => exact ⟨congrArg (· + 1) hlevel, nofun⟩
      | expired =>
          refine ⟨congrArg (· - 1) hlevel, fun _ hpos => ?_⟩
          dsimp only [Tally.next] at hpos ⊢
          rw [if_neg (by omega)]
          omega
      | overran => exact absurd rfl counted.2

/-- The phase that a tally stands for: boosted as long as no boost has expired since the last one
was granted. -/
def Tally.phase (t : Tally) : Phase :=
  if t.active = 0 then .idle
  else if t.ending then .decaying
  else .boosted

/-- The event doubles the block timeout. -/
def Controller.doubles (s : Controller) (e : Event) : Bool :=
  s.turn? e = some .granted ∨ s.turn? e = some .overran

/-- No doubling is cut off, and no boost ends that is not active. -/
def Controller.Orderly (s : Controller) : List Event → Prop
  | [] => True
  | e :: es =>
    (s.doubles e → 2 * s.block.nanos ≤ Duration.maxNanos) ∧
      (e = .expired → 0 < s.active) ∧ (s.step e).1.Orderly es

instance Controller.decidableOrderly (s : Controller) : (es : List Event) → Decidable (s.Orderly es)
  | [] => inferInstanceAs (Decidable True)
  | e :: es =>
    have : Decidable ((s.step e).1.Orderly es) := Controller.decidableOrderly (s.step e).1 es
    inferInstanceAs (Decidable (_ ∧ _ ∧ (s.step e).1.Orderly es))

/-- Both timeouts of a controller are its base, doubled so often: as is left, or as was at most at a
time. -/
structure Tracks (s : Controller) (t : Tally) : Prop where
  active : s.active = t.active
  block : s.block.nanos = s.base.nanos * 2 ^ t.level
  peak : s.peak.nanos = s.base.nanos * 2 ^ t.highest
  base_pos : 0 < t.level → 0 < s.base.nanos

theorem tracks_ofConfig (config : Pool.Config) : Tracks (Controller.ofConfig config) {} where
  active := rfl
  block := by simp [Controller.ofConfig]
  peak := by simp [Controller.ofConfig]
  base_pos := nofun

/-- A blocked push changes nothing, or it doubles a block timeout that was not zero: for a boost
that it is granted, or on the way to breaking off. -/
theorem blocked_cases (s : Controller) (observed : Duration) :
    s.turn? (.blocked observed) = none ∧ (s.blocked observed).1 = s ∨
      0 < s.block.nanos ∧
        (s.turn? (.blocked observed) = some .granted ∧ (s.blocked observed).1 =
            { s.escalate with workers := s.workers + s.grant, active := s.active + 1 } ∨
          s.turn? (.blocked observed) = some .overran ∧ (s.blocked observed).1 = s.escalate) := by
  have hpos (on : s.enabled = true) : 0 < s.block.nanos :=
    Nat.pos_of_ne_zero fun h => (Controller.enabled_iff.mp on).1 (Duration.ext_nanos h)
  have hdecides := s.blocked_decides observed
  simp only [Controller.turn?]
  generalize s.blocked observed = outcome at hdecides ⊢
  cases hdecides with
  | disabled | alreadyEscalated | atCapacity => exact Or.inl ⟨rfl, rfl⟩
  | overflow on reached some_left uncountable =>
      exact Or.inr ⟨hpos on, Or.inr ⟨rfl, rfl⟩⟩
  | boost on reached some_left countable => exact Or.inr ⟨hpos on, Or.inl ⟨rfl, rfl⟩⟩

/-- A doubling that is not cut off doubles both timeouts in step. -/
theorem Tracks.escalate {s : Controller} {t : Tally} (h : Tracks s t) (hpos : 0 < s.block.nanos)
    (hroom : 2 * s.block.nanos ≤ Duration.maxNanos) :
    s.escalate.block.nanos = s.base.nanos * 2 ^ (t.level + 1) ∧
      s.escalate.peak.nanos = s.base.nanos * 2 ^ max t.highest (t.level + 1) ∧
      0 < s.base.nanos := by
  have hdouble : s.block.double.nanos = s.base.nanos * 2 ^ (t.level + 1) := by
    rw [Duration.nanos_double, Nat.min_eq_left hroom, h.block]
    ring
  have hmax : max (2 ^ t.highest) (2 ^ (t.level + 1)) = 2 ^ max t.highest (t.level + 1) :=
    ((pow_right_mono₀ one_le_two).map_max (a := t.highest) (b := t.level + 1)).symm
  refine ⟨hdouble, ?_, ?_⟩
  · change (max s.peak s.block.double).nanos = _
    rw [Duration.nanos_max, hdouble, h.peak, Nat.mul_max_mul_left, hmax]
  · rw [h.block] at hpos
    exact Nat.pos_of_mul_pos_right hpos

/-- The end of an active boost halves the block timeout exactly. -/
theorem Tracks.expired {s : Controller} {t : Tally} (h : Tracks s t) (sound : t.Sound)
    (hpos : 0 < s.active) : Tracks s.expired (t.next .expired) := by
  have hactive := h.active
  have hle := sound.active_le
  obtain ⟨n, hn⟩ : ∃ n, t.level = n + 1 := ⟨t.level - 1, by omega⟩
  -- The timeout is the base doubled at least once: half of it is exact and not below the base.
  have hhalf : (max s.block.half s.base).nanos = s.base.nanos * 2 ^ (t.level - 1) := by
    have hle : s.base.nanos ≤ s.base.nanos * 2 ^ n :=
      Nat.le_mul_of_pos_right _ (Nat.two_pow_pos n)
    have htwice : s.base.nanos * 2 ^ (n + 1) / 2 = s.base.nanos * 2 ^ n := by
      rw [pow_succ, ← mul_assoc, Nat.mul_div_cancel _ two_pos]
    rw [Duration.nanos_max, Duration.nanos_half, h.block, hn, htwice]
    exact max_eq_left hle
  constructor
  · exact congrArg (· - 1) hactive
  · exact hhalf
  · change (if s.active - 1 = 0 then max s.block.half s.base else s.peak).nanos =
      s.base.nanos * 2 ^ (if t.active - 1 = 0 then t.level - 1 else t.highest)
    rw [hactive]
    split
    · exact hhalf
    · exact h.peak
  · intro _
    exact h.base_pos (by omega)

theorem Tracks.quiet {s r : Controller} {t : Tally} (h : Tracks s t) (hblock : r.block = s.block)
    (hbase : r.base = s.base) (hpeak : r.peak = s.peak) (hactive : r.active = s.active) :
    Tracks r t := by
  obtain ⟨ha, hb, hp, hpos⟩ := h
  exact ⟨by rw [hactive, ha], by rw [hblock, hbase, hb], by rw [hpeak, hbase, hp],
    by rw [hbase]; exact hpos⟩

/-- Other workers leave the timeouts alone, whether they can be counted or not. -/
theorem started_timeouts (s : Controller) (n : Nat) :
    (s.started n).block = s.block ∧ (s.started n).base = s.base ∧
      (s.started n).peak = s.peak ∧ (s.started n).active = s.active := by
  unfold Controller.started
  split <;> exact ⟨rfl, rfl, rfl, rfl⟩

/-- The timeouts go on telling the numbers of boosts after any events in good order. -/
theorem Tracks.run {s : Controller} {turns : List Turn} (h : Tracks s (tally turns))
    {events : List Event} (orderly : s.Orderly events) :
    Tracks (s.run events) (tally (turns ++ s.turns events)) := by
  induction events generalizing s turns with
  | nil => simpa [Controller.turns] using h
  | cons e rest ih =>
      obtain ⟨hroom, hend, hrest⟩ := orderly
      have hstep : Tracks (s.step e).1 (tally (turns ++ (s.turn? e).toList)) := by
        cases e with
        | blocked observed =>
            rcases blocked_cases s observed with ⟨hturn, hsame⟩ |
              ⟨hpos, ⟨hturn, hnew⟩ | ⟨hturn, hnew⟩⟩
            · rw [hturn, Controller.step, hsame]
              simpa using h
            · obtain ⟨hblock, hpeak, hbase⟩ :=
                h.escalate hpos (hroom (by simp [Controller.doubles, hturn]))
              rw [hturn, Controller.step, hnew, Option.toList_some, tally_append]
              exact ⟨congrArg (· + 1) h.active, hblock, hpeak, fun _ => hbase⟩
            · obtain ⟨hblock, hpeak, hbase⟩ :=
                h.escalate hpos (hroom (by simp [Controller.doubles, hturn]))
              rw [hturn, Controller.step, hnew, Option.toList_some, tally_append]
              exact ⟨h.active, hblock, hpeak, fun _ => hbase⟩
        | expired =>
            rw [Controller.turn?, Option.toList_some, tally_append]
            exact h.expired (sound_tally turns) (hend rfl)
        | started n =>
            obtain ⟨hblock, hbase, hpeak, hactive⟩ := started_timeouts s n
            change Tracks _ (tally (turns ++ []))
            rw [List.append_nil]
            exact h.quiet hblock hbase hpeak hactive
        | stopped | setMaxWorkers | manage =>
            change Tracks _ (tally (turns ++ []))
            rw [List.append_nil]
            exact h.quiet rfl rfl rfl rfl
      have htail := ih hstep hrest
      rwa [List.append_assoc] at htail

/-- The phase compares the doublings that are left with the most there were. -/
theorem Tracks.phase_eq {s : Controller} {t : Tally} (h : Tracks s t) (sound : t.Sound) :
    s.phase = if t.active = 0 then .idle else if t.highest ≤ t.level then .boosted
      else .decaying := by
  have hcompare (hpos : t.active ≠ 0) : s.peak ≤ s.block ↔ t.highest ≤ t.level := by
    have hle := sound.active_le
    have hbase := h.base_pos (by omega)
    rw [Duration.le_iff, h.block, h.peak, Nat.mul_le_mul_left_iff hbase,
      Nat.pow_le_pow_iff_right (by omega)]
  unfold Controller.phase
  rw [h.active]
  split
  · rfl
  · rename_i hpos
    simp only [hcompare hpos]

/-- The phase tells what it is meant to tell as long as no boost is active, or the last boost to be
granted or to expire has expired exactly if fewer doublings are left than there were; and in no
other case. As long as every boost could be counted, the doublings that are left are the active
boosts: the phase is then right exactly if no boost is active, or one has expired since the last one
was granted, or so many are active as never were since none was. -/
theorem phase_eq_tally_iff (config : Pool.Config) (events : List Event)
    (orderly : (Controller.ofConfig config).Orderly events) :
    let s := (Controller.ofConfig config).run events
    let turns := (Controller.ofConfig config).turns events
    let t := tally turns
    (s.phase = .idle ↔ t.active = 0) ∧
    (s.phase = .boosted ↔ 0 < t.active ∧ t.level = t.highest) ∧
    (s.phase = .decaying ↔ 0 < t.active ∧ t.level < t.highest) ∧
    (s.phase = t.phase ↔ t.active = 0 ∨ (t.ending = true ↔ t.level < t.highest)) ∧
    (.overran ∉ turns → t.level = t.active ∧
      (s.phase = t.phase ↔ t.active = 0 ∨ t.ending = true ∨ t.active = t.highest)) := by
  intro s turns t
  have htracks : Tracks s t := by
    have hstart : Tracks (Controller.ofConfig config) (tally []) := tracks_ofConfig config
    simpa using hstart.run orderly
  have hsound : t.Sound := sound_tally turns
  have hle := hsound.level_le
  have hphase := htracks.phase_eq hsound
  have htells : s.phase = t.phase ↔ t.active = 0 ∨ (t.ending = true ↔ t.level < t.highest) := by
    rw [hphase, Tally.phase]
    by_cases hzero : t.active = 0
    · simp [hzero]
    · by_cases hhighest : t.highest ≤ t.level <;> cases t.ending <;> simp [hzero, hhighest]
      all_goals omega
  have hplain (counted : .overran ∉ turns) : t.level = t.active ∧
      (s.phase = t.phase ↔ t.active = 0 ∨ t.ending = true ∨ t.active = t.highest) := by
    obtain ⟨hlevel, hending⟩ : t.Plain := plain_tally counted
    refine ⟨hlevel, ?_⟩
    rw [htells, hlevel]
    by_cases hzero : t.active = 0
    · simp [hzero]
    · cases hlast : t.ending with
      | false =>
          simp only [hzero, false_or, Bool.false_eq_true, false_iff]
          omega
      | true =>
          have hlt := hending hlast (Nat.pos_of_ne_zero hzero)
          simp [hlt]
  refine ⟨?_, ?_, ?_, htells, hplain⟩
  all_goals
    rw [hphase]
    by_cases hzero : t.active = 0
    · simp [hzero]
    · by_cases hhighest : t.highest ≤ t.level <;> simp [hzero, hhighest]
      all_goals omega

/-- A block timeout of 50 ms, and boosts of one worker for 200 ms. -/
def climbConfig : Pool.Config where
  blockTimeout := ⟨50000000, by decide⟩
  boostTimeout := ⟨200000000, by decide⟩
  boostWorkers := 1

/-- Three boosts are granted, two expire, and one more is granted. -/
def climbEvents : List Event :=
  [.blocked ⟨50000000, by decide⟩, .blocked ⟨100000000, by decide⟩,
    .blocked ⟨200000000, by decide⟩, .expired, .expired, .blocked ⟨100000000, by decide⟩]

theorem phase_eq_tally_iff_climb :
    (Controller.ofConfig climbConfig).Orderly climbEvents ∧
    tally ((Controller.ofConfig climbConfig).turns climbEvents) = ⟨2, false, 2, 3⟩ ∧
    ((Controller.ofConfig climbConfig).run climbEvents).phase = .decaying := by
  have orderly : (Controller.ofConfig climbConfig).Orderly climbEvents := by decide
  obtain ⟨-, -, hdecaying, -⟩ := phase_eq_tally_iff climbConfig climbEvents orderly
  exact ⟨orderly, by decide, hdecaying.mpr (by decide)⟩

/-- A boost that is granted on the way down can leave the phase at decaying. -/
theorem phase_misses_granted_boost :
    ¬ ∀ (config : Pool.Config) (events : List Event), config.blockTimeout ≠ Duration.zero →
      (Controller.ofConfig config).Orderly events →
      ((Controller.ofConfig config).run events).phase =
        (tally ((Controller.ofConfig config).turns events)).phase := by
  intro h
  have hphase := h climbConfig climbEvents (by decide) (by decide)
  revert hphase
  decide

end Coordination.Boost
