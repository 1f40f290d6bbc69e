import Mathlib.Order.Bounds.Basic
import Coordination.Boost

/-!
What a push that stayed blocked is answered, and what the answer does to the controller. There are
three reasons to refuse a boost, which are looked at in a fixed order, and a refusal changes
nothing. A granted boost takes as many workers as its size and the limit admit, and it is counted
together with all that belongs to it: no part of a boost is left behind by a refusal. Only a call
that breaks off, since the count has no room for the boost, leaves a part of it.
-/

namespace Coordination.Boost

namespace Controller

/-- What becomes of a push that stayed blocked, and when. -/
inductive Decides (s : Controller) (observed : Duration) : Controller × Decision → Prop where
  | disabled (off : s.block = Duration.zero ∨ s.lifetime = Duration.zero) :
    Decides s observed (s, .disabled)
  | alreadyEscalated (on : s.enabled = true) (past : observed < s.block) :
    Decides s observed (s, .alreadyEscalated)
  | atCapacity (on : s.enabled = true) (reached : s.block ≤ observed) (none_left : s.grant = 0) :
    Decides s observed (s, .atCapacity)
  | overflow (on : s.enabled = true) (reached : s.block ≤ observed) (some_left : 0 < s.grant)
      (uncountable : wordSize ≤ s.workers + s.grant) :
    Decides s observed (s.escalate, .overflow)
  | boost (on : s.enabled = true) (reached : s.block ≤ observed) (some_left : 0 < s.grant)
      (countable : s.workers + s.grant < wordSize) :
    Decides s observed
      ({ s.escalate with workers := s.workers + s.grant, active := s.active + 1 },
        .boost s.grant s.lifetime)

theorem enabled_iff {s : Controller} :
    s.enabled = true ↔ s.block ≠ Duration.zero ∧ s.lifetime ≠ Duration.zero := by
  simp [enabled]

theorem blocked_decides (s : Controller) (observed : Duration) :
    Decides s observed (s.blocked observed) := by
  unfold blocked
  split
  · rename_i hoff
    apply Decides.disabled
    rw [enabled_iff, not_and_or, not_not, not_not] at hoff
    exact hoff
  · rename_i hon
    rw [not_not] at hon
    split
    · rename_i hpast
      exact Decides.alreadyEscalated hon hpast
    · rename_i hreached
      have hreached : s.block ≤ observed := Nat.not_lt.mp hreached
      split
      · rename_i hnone
        exact Decides.atCapacity hon hreached hnone
      · rename_i hsome
        have hpos : 0 < s.grant := Nat.pos_of_ne_zero hsome
        split
        · rename_i hover
          exact Decides.overflow hon hreached hpos (by simpa [countable] using hover)
        · rename_i hcounts
          exact Decides.boost hon hreached hpos (by simpa [countable] using hcounts)

/-- So many workers would not be more than a boost has, nor lead past the limit. -/
def Fits (s : Controller) (n : Nat) : Prop :=
  n ≤ s.boostWorkers ∧ ∀ limit ∈ s.maxWorkers, s.workers + n ≤ limit

instance decidableFits (s : Controller) (n : Nat) : Decidable (s.Fits n) :=
  inferInstanceAs (Decidable (_ ∧ ∀ limit ∈ s.maxWorkers, s.workers + n ≤ limit))

theorem room_eq_zero_iff {s : Controller} :
    s.room = 0 ↔ ∃ limit ∈ s.maxWorkers, limit ≤ s.workers := by
  unfold room
  cases s.maxWorkers with
  | none => simp [wordSize]
  | some limit => simp [Nat.sub_eq_zero_iff_le]

theorem grant_eq_zero_iff {s : Controller} :
    s.grant = 0 ↔ s.boostWorkers = 0 ∨ ∃ limit ∈ s.maxWorkers, limit ≤ s.workers := by
  rw [← room_eq_zero_iff, grant]
  omega

theorem grant_pos_iff {s : Controller} :
    0 < s.grant ↔ 0 < s.boostWorkers ∧ ∀ limit ∈ s.maxWorkers, s.workers < limit := by
  rw [Nat.pos_iff_ne_zero, ne_eq, grant_eq_zero_iff, not_or, Nat.pos_iff_ne_zero]
  simp only [not_exists, not_and, not_le]

theorem fits_grant {s : Controller} (some_left : 0 < s.grant) : s.Fits s.grant := by
  constructor
  · exact Nat.min_le_left _ _
  · intro limit hlimit
    have hroom : s.grant ≤ limit - s.workers := by
      have hle : s.grant ≤ s.room := Nat.min_le_right _ _
      rw [room, Option.mem_def.mp hlimit] at hle
      exact hle
    omega

/-- A boost takes all the workers that it may, as far as a word can count them. -/
theorem le_grant {s : Controller} {n : Nat} (h : s.Fits n) (countable : n < wordSize) :
    n ≤ s.grant := by
  apply Nat.le_min.mpr
  constructor
  · exact h.1
  · unfold room
    cases hlimit : s.maxWorkers with
    | none => exact Nat.le_pred_of_lt countable
    | some limit =>
        have hle : s.workers + n ≤ limit := h.2 limit hlimit
        exact Nat.le_sub_of_add_le' hle

theorem grant_isGreatest {s : Controller} (countable : ∀ n, s.Fits n → s.workers + n < wordSize)
    (some_left : 0 < s.grant) : IsGreatest {n | s.Fits n} s.grant := by
  constructor
  · exact fits_grant some_left
  · intro n hn
    apply le_grant hn
    have hlt := countable n hn
    omega

end Controller

section Answer

variable {s : Controller} {observed : Duration}

/-- A granted boost, with all that it takes and all that it changes. -/
theorem boost_cases {n : Nat} {lifetime : Duration}
    (h : (s.blocked observed).2 = .boost n lifetime) :
    (s.enabled = true ∧ s.block ≤ observed ∧ 0 < s.grant) ∧ s.workers + n < wordSize ∧
      n = s.grant ∧ lifetime = s.lifetime ∧
      (s.blocked observed).1 =
        { s.escalate with workers := s.workers + n, active := s.active + 1 } := by
  have hdecides := s.blocked_decides observed
  generalize s.blocked observed = outcome at h hdecides
  cases hdecides with
  | disabled | alreadyEscalated | atCapacity | overflow => cases h
  | boost on reached some_left countable =>
      obtain ⟨rfl, rfl⟩ := Decision.boost.inj h
      exact ⟨⟨on, reached, some_left⟩, countable, rfl, rfl, rfl⟩

/-- A call that breaks off has found a boost due, and leaves the timeout doubled. -/
theorem overflow_cases (h : (s.blocked observed).2 = .overflow) :
    (s.enabled = true ∧ s.block ≤ observed ∧ 0 < s.grant) ∧ wordSize ≤ s.workers + s.grant ∧
      (s.blocked observed).1 = s.escalate := by
  have hdecides := s.blocked_decides observed
  generalize s.blocked observed = outcome at h hdecides
  cases hdecides with
  | disabled | alreadyEscalated | atCapacity | boost => cases h
  | overflow on reached some_left uncountable => exact ⟨⟨on, reached, some_left⟩, uncountable, rfl⟩

/-- Once a boost is due, the count of workers decides. -/
theorem blocked_of_due (on : s.enabled = true) (reached : s.block ≤ observed)
    (some_left : 0 < s.grant) :
    (s.blocked observed).2 =
      if s.workers + s.grant < wordSize then .boost s.grant s.lifetime else .overflow := by
  have hdecides := s.blocked_decides observed
  generalize s.blocked observed = outcome at hdecides
  cases hdecides with
  | disabled off =>
      rw [Controller.enabled_iff] at on
      exact absurd off (not_or.mpr on)
  | alreadyEscalated on past => exact absurd reached (Nat.not_le.mpr past)
  | atCapacity on reached none_left => exact absurd none_left some_left.ne'
  | overflow on reached some_left uncountable => rw [if_neg (Nat.not_lt.mpr uncountable)]
  | boost on reached some_left countable => rw [if_pos countable]

theorem boost_iff : (∃ n lifetime, (s.blocked observed).2 = .boost n lifetime) ↔
    (s.enabled = true ∧ s.block ≤ observed ∧ 0 < s.grant) ∧ s.workers + s.grant < wordSize := by
  constructor
  · rintro ⟨n, lifetime, h⟩
    obtain ⟨hdue, hcounts, rfl, -⟩ := boost_cases h
    exact ⟨hdue, hcounts⟩
  · rintro ⟨⟨hon, hreached, hsome⟩, hcounts⟩
    exact ⟨s.grant, s.lifetime, by rw [blocked_of_due hon hreached hsome, if_pos hcounts]⟩

theorem overflow_iff : (s.blocked observed).2 = .overflow ↔
    (s.enabled = true ∧ s.block ≤ observed ∧ 0 < s.grant) ∧ wordSize ≤ s.workers + s.grant := by
  constructor
  · intro h
    obtain ⟨hdue, hover, -⟩ := overflow_cases h
    exact ⟨hdue, hover⟩
  · rintro ⟨⟨hon, hreached, hsome⟩, hover⟩
    rw [blocked_of_due hon hreached hsome, if_neg (Nat.not_lt.mpr hover)]

/-- A refusal leaves nothing behind. -/
theorem blocked_of_refused (h : ∀ n lifetime, (s.blocked observed).2 ≠ .boost n lifetime)
    (whole : (s.blocked observed).2 ≠ .overflow) : (s.blocked observed).1 = s := by
  have hdecides := s.blocked_decides observed
  generalize s.blocked observed = outcome at h whole hdecides
  cases hdecides with
  | disabled | alreadyEscalated | atCapacity => rfl
  | overflow => exact absurd rfl whole
  | boost => exact absurd rfl (h _ _)

end Answer

/-- The answers that refuse a boost, in the order in which they are looked at. -/
def refusals : List Decision := [.disabled, .alreadyEscalated, .atCapacity]

/-- Why a push that stayed blocked for `observed` may be refused a boost with this answer. -/
def Controller.Refuses (s : Controller) (observed : Duration) : Decision → Prop
  | .disabled => s.block = Duration.zero ∨ s.lifetime = Duration.zero
  | .alreadyEscalated => observed < s.block
  | .atCapacity => s.boostWorkers = 0 ∨ ∃ limit ∈ s.maxWorkers, limit ≤ s.workers
  | .boost _ _ | .overflow => False

instance Controller.decidableRefuses (s : Controller) (observed : Duration) :
    (answer : Decision) → Decidable (s.Refuses observed answer)
  | .disabled => inferInstanceAs (Decidable (_ ∨ _))
  | .alreadyEscalated => inferInstanceAs (Decidable (_ < _))
  | .atCapacity => inferInstanceAs (Decidable (_ ∨ ∃ limit ∈ s.maxWorkers, limit ≤ s.workers))
  | .boost _ _ | .overflow => inferInstanceAs (Decidable False)

/-- A boost is refused for the first reason that there is. -/
theorem find?_refusals {s : Controller} {observed : Duration}
    (h : ∀ n lifetime, (s.blocked observed).2 ≠ .boost n lifetime)
    (whole : (s.blocked observed).2 ≠ .overflow) :
    refusals.find? (fun answer => s.Refuses observed answer) = some (s.blocked observed).2 := by
  have hon (on : s.enabled = true) : ¬ s.Refuses observed .disabled := by
    rw [Controller.enabled_iff] at on
    exact not_or.mpr on
  have hreached (reached : s.block ≤ observed) : ¬ s.Refuses observed .alreadyEscalated :=
    Nat.not_lt.mpr reached
  have hdecides := s.blocked_decides observed
  generalize s.blocked observed = outcome at h whole hdecides
  cases hdecides with
  | disabled off =>
      have hwhy : s.Refuses observed .disabled := off
      simp [refusals, hwhy]
  | alreadyEscalated on past =>
      have hwhy : s.Refuses observed .alreadyEscalated := past
      simp [refusals, hon on, hwhy]
  | atCapacity on reached none_left =>
      have hwhy : s.Refuses observed .atCapacity := Controller.grant_eq_zero_iff.mp none_left
      simp [refusals, hon on, hreached reached, hwhy]
  | overflow => exact absurd rfl whole
  | boost => exact absurd rfl (h _ _)

/-- A blocked push is granted a boost exactly when boosting is on, the block timeout is not above
the one that the push had read, a boost has workers, and the limit leaves room for one. It is then
granted as many as fit, and they are counted together with the boost: the count, the active boosts,
the block timeout and its peak change, and nothing else does. Otherwise nothing changes at all, and
the answer is the first of the refusals that has a reason. All this holds as long as the workers
that would fit can be counted. -/
theorem blocked_push_decided (s : Controller) (observed : Duration)
    (countable : ∀ n, s.Fits n → s.workers + n < wordSize) :
    ((∃ n lifetime, (s.blocked observed).2 = .boost n lifetime) ↔
      (s.block ≠ Duration.zero ∧ s.lifetime ≠ Duration.zero) ∧ s.block ≤ observed ∧
        0 < s.boostWorkers ∧ ∀ limit ∈ s.maxWorkers, s.workers < limit) ∧
    (∀ n lifetime, (s.blocked observed).2 = .boost n lifetime →
      IsGreatest {m | s.Fits m} n ∧ lifetime = s.lifetime ∧
      (s.blocked observed).1 =
        { s with
          block := s.block.double
          peak := max s.peak s.block.double
          workers := s.workers + n
          active := s.active + 1 }) ∧
    ((∀ n lifetime, (s.blocked observed).2 ≠ .boost n lifetime) →
      (s.blocked observed).1 = s ∧
      refusals.find? (fun answer => s.Refuses observed answer) = some (s.blocked observed).2) := by
  have hcounts (some_left : 0 < s.grant) : s.workers + s.grant < wordSize :=
    countable s.grant (Controller.fits_grant some_left)
  refine ⟨?_, ?_, ?_⟩
  · rw [boost_iff, and_iff_left_of_imp fun hdue => hcounts hdue.2.2, Controller.enabled_iff,
      Controller.grant_pos_iff]
  · intro n lifetime h
    obtain ⟨⟨-, -, hsome⟩, -, rfl, rfl, hnew⟩ := boost_cases h
    exact ⟨Controller.grant_isGreatest countable hsome, rfl, hnew⟩
  · intro h
    have hwhole : (s.blocked observed).2 ≠ .overflow := by
      intro hover
      obtain ⟨⟨-, -, hsome⟩, hle, -⟩ := overflow_cases hover
      exact absurd (hcounts hsome) (Nat.not_lt.mpr hle)
    exact ⟨blocked_of_refused h hwhole, find?_refusals h hwhole⟩

/-- Boosts of four workers, up to five workers in all. -/
def clampedConfig : Pool.Config where
  blockTimeout := .ofNanos 50
  boostTimeout := .ofNanos 200
  boostWorkers := 4
  maxWorkers := some 5

/-- Of four workers two fit, and the timeout is doubled. Then the limit is lowered to less than what
is there, and the next push finds everything as it was. -/
theorem blocked_push_decided_clamped :
    let s := (Controller.ofConfig clampedConfig).run [.started 3]
    let r := (s.blocked (.ofNanos 50)).1.setMaxWorkers (some 4)
    (∀ n, s.Fits n → s.workers + n < wordSize) ∧ (∀ n, r.Fits n → r.workers + n < wordSize) ∧
    (s.blocked (.ofNanos 50)).2 = .boost 2 (.ofNanos 200) ∧ IsGreatest {m | s.Fits m} 2 ∧
    r.workers = 5 ∧ r.block = .ofNanos 100 ∧ (r.blocked (.ofNanos 100)).1 = r ∧
    refusals.find? (fun answer => r.Refuses (.ofNanos 100) answer) = some .atCapacity := by
  intro s r
  have hs : ∀ n, s.Fits n → s.workers + n < wordSize :=
    fun n hn => (hn.2 5 rfl).trans_lt (by decide)
  have hr : ∀ n, r.Fits n → r.workers + n < wordSize :=
    fun n hn => (hn.2 4 rfl).trans_lt (by decide)
  have hboost : (s.blocked (.ofNanos 50)).2 = .boost 2 (.ofNanos 200) := by decide
  have hfull : (r.blocked (.ofNanos 100)).2 = .atCapacity := by decide
  obtain ⟨-, hgranted, -⟩ := blocked_push_decided s (.ofNanos 50) hs
  obtain ⟨-, -, hrefused⟩ := blocked_push_decided r (.ofNanos 100) hr
  obtain ⟨hgreatest, -, -⟩ := hgranted _ _ hboost
  obtain ⟨hsame, hanswer⟩ := hrefused (by rw [hfull]; exact nofun)
  rw [hfull] at hanswer
  exact ⟨hs, hr, hboost, hgreatest, by decide, by decide, hsame, hanswer⟩

end Coordination.Boost
