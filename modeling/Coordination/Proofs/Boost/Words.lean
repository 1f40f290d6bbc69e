import Coordination.Proofs.Boost.Decision

/-!
The count of workers as a 64-bit word. A limit is itself a word, and a boost that keeps to it can
be counted. Without a limit the room for a boost is taken to be the largest word, whatever the
count is: a boost may then outgrow the count. The call that would grant it breaks off, after it has
doubled the timeout, and the doubled timeout stays.
-/

namespace Coordination.Boost

/-- The numbers of a controller are words. -/
structure InWords (s : Controller) : Prop where
  workers : s.workers < wordSize
  boostWorkers : s.boostWorkers < wordSize
  limit : ∀ limit ∈ s.maxWorkers, limit < wordSize

def Event.InWords : Event → Prop
  | .started n => n < wordSize
  | .setMaxWorkers limit => ∀ n ∈ limit, n < wordSize
  | .manage boostWorkers limit _ => boostWorkers < wordSize ∧ ∀ n ∈ limit, n < wordSize
  | .blocked _ | .expired | .stopped => True

instance Event.decidableInWords : (e : Event) → Decidable e.InWords
  | .started n => inferInstanceAs (Decidable (n < wordSize))
  | .setMaxWorkers limit => inferInstanceAs (Decidable (∀ n ∈ limit, n < wordSize))
  | .manage n limit _ => inferInstanceAs (Decidable (n < wordSize ∧ ∀ n ∈ limit, n < wordSize))
  | .blocked _ | .expired | .stopped => inferInstanceAs (Decidable True)

theorem inWords_ofConfig (config : Pool.Config) : InWords (Controller.ofConfig config) := by
  constructor
  · exact Nat.two_pow_pos 64
  · exact config.boostWorkers.toNat_lt
  · intro limit hlimit
    obtain ⟨word, -, rfl⟩ := Option.map_eq_some_iff.mp hlimit
    exact word.toNat_lt

theorem InWords.blocked {s : Controller} (h : InWords s) (observed : Duration) :
    InWords (s.blocked observed).1 := by
  have hdecides := s.blocked_decides observed
  generalize s.blocked observed = outcome at hdecides
  cases hdecides with
  | disabled | alreadyEscalated | atCapacity => exact h
  | overflow => exact ⟨h.workers, h.boostWorkers, h.limit⟩
  | boost on reached some_left countable => exact ⟨countable, h.boostWorkers, h.limit⟩

theorem InWords.started {s : Controller} (h : InWords s) (n : Nat) : InWords (s.started n) := by
  unfold Controller.started
  split
  · rename_i hcounts
    exact ⟨of_decide_eq_true hcounts, h.boostWorkers, h.limit⟩
  · exact h

theorem InWords.step {s : Controller} (h : InWords s) {e : Event} (words : e.InWords) :
    InWords (s.step e).1 := by
  cases e with
  | blocked observed => exact h.blocked observed
  | expired => exact ⟨h.workers, h.boostWorkers, h.limit⟩
  | started n => exact h.started n
  | stopped =>
      have hless : s.workers - 1 < wordSize := (Nat.sub_le _ _).trans_lt h.workers
      exact ⟨hless, h.boostWorkers, h.limit⟩
  | setMaxWorkers limit => exact ⟨h.workers, h.boostWorkers, words⟩
  | manage n limit lifetime => exact ⟨h.workers, words.1, words.2⟩

theorem InWords.run {s : Controller} (h : InWords s) {events : List Event}
    (words : ∀ e ∈ events, e.InWords) : InWords (s.run events) := by
  induction events generalizing s with
  | nil => exact h
  | cons e rest ih =>
      obtain ⟨he, hrest⟩ := List.forall_mem_cons.mp words
      exact ih (h.step he) hrest

/-- A boost outgrows the count only without a limit, and then it has its full size. -/
theorem InWords.grant_overflows_iff {s : Controller} (h : InWords s) (some_left : 0 < s.grant) :
    wordSize ≤ s.workers + s.grant ↔
      s.maxWorkers = none ∧ wordSize ≤ s.workers + s.boostWorkers := by
  cases hlimit : s.maxWorkers with
  | none =>
      have hsize : s.grant = s.boostWorkers := by
        have hword := h.boostWorkers
        rw [Controller.grant, Controller.room, hlimit]
        exact Nat.min_eq_left (Nat.le_pred_of_lt hword)
      rw [hsize]
      simp
  | some limit =>
      have hfits : s.workers + s.grant ≤ limit := (Controller.fits_grant some_left).2 limit hlimit
      have hword : limit < wordSize := h.limit limit hlimit
      constructor
      · intro hover
        omega
      · rintro ⟨hnone, -⟩
        cases hnone

/-- A call on a blocked push breaks off exactly when a boost is due, there is no limit, and the
count has no room for all of its workers. It leaves the timeout and its peak doubled, with no boost
granted and nobody counted. A boost that is granted can be counted, is counted exactly and keeps to
the limit, and every other answer changes nothing. -/
theorem boost_overflows_iff (config : Pool.Config) {events : List Event}
    (words : ∀ e ∈ events, e.InWords) (observed : Duration) :
    let s := (Controller.ofConfig config).run events
    s.workers < wordSize ∧
    ((s.blocked observed).2 = .overflow ↔
      s.enabled ∧ s.block ≤ observed ∧ s.maxWorkers = none ∧
        wordSize ≤ s.workers + s.boostWorkers) ∧
    ((s.blocked observed).2 = .overflow → (s.blocked observed).1 =
      { s with block := s.block.double, peak := max s.peak s.block.double }) ∧
    (∀ n lifetime, (s.blocked observed).2 = .boost n lifetime →
      s.workers + n < wordSize ∧ (∀ limit ∈ s.maxWorkers, s.workers + n ≤ limit) ∧
      (s.blocked observed).1 =
        { s with
          block := s.block.double
          peak := max s.peak s.block.double
          workers := s.workers + n
          active := s.active + 1 }) ∧
    ((∀ n lifetime, (s.blocked observed).2 ≠ .boost n lifetime) →
      (s.blocked observed).2 ≠ .overflow → (s.blocked observed).1 = s) := by
  intro s
  have hs : InWords s := (inWords_ofConfig config).run words
  refine ⟨hs.workers, ?_, fun h => (overflow_cases h).2.2, ?_, blocked_of_refused⟩
  · rw [overflow_iff]
    constructor
    · rintro ⟨⟨hon, hreached, hsome⟩, hover⟩
      exact ⟨hon, hreached, (hs.grant_overflows_iff hsome).mp hover⟩
    · rintro ⟨hon, hreached, hnone, hover⟩
      have hsome : 0 < s.grant := by
        have hworkers := hs.workers
        have hsize : 0 < s.boostWorkers := by omega
        exact Controller.grant_pos_iff.mpr ⟨hsize, by simp [hnone]⟩
      exact ⟨⟨hon, hreached, hsome⟩, (hs.grant_overflows_iff hsome).mpr ⟨hnone, hover⟩⟩
  · intro n lifetime hboost
    obtain ⟨⟨-, -, hsome⟩, hcounts, rfl, -, hnew⟩ := boost_cases hboost
    exact ⟨hcounts, (Controller.fits_grant hsome).2, hnew⟩

/-- A block timeout of 50 ms, boosts of one worker for 200 ms, and no limit. -/
def boundlessConfig : Pool.Config where
  blockTimeout := .ofMillis 50
  boostTimeout := .ofMillis 200
  boostWorkers := 1

/-- As many workers as a word can count are there, so that a boost of one cannot be counted. -/
theorem boost_overflows_iff_boundless :
    let events := [Event.started (wordSize - 1)]
    let s := (Controller.ofConfig boundlessConfig).run events
    (∀ e ∈ events, e.InWords) ∧ s.workers = wordSize - 1 ∧
    (s.blocked (.ofMillis 50)).2 = .overflow ∧
    (s.blocked (.ofMillis 50)).1 = { s with block := .ofMillis 100, peak := .ofMillis 100 } := by
  intro events s
  have words : ∀ e ∈ events, e.InWords := by decide
  obtain ⟨-, hiff, hleft, -⟩ := boost_overflows_iff boundlessConfig words (.ofMillis 50)
  have hover : (s.blocked (.ofMillis 50)).2 = .overflow := hiff.mpr (by decide)
  exact ⟨words, by decide, hover, (hleft hover).trans (by decide)⟩

/-- A boost can be due that the count has no room for, and the call that breaks off over it changes
the timeout. -/
theorem granted_boost_overflows :
    ¬ ∀ (config : Pool.Config) (events : List Event) (observed : Duration),
      (∀ e ∈ events, e.InWords) →
      let s := (Controller.ofConfig config).run events
      s.workers < wordSize →
        ((s.blocked observed).2 = .overflow → (s.blocked observed).1 = s) := by
  intro h
  have hsame := h boundlessConfig [.started (wordSize - 1)] (.ofMillis 50) (by decide) (by decide)
  revert hsame
  decide

end Coordination.Boost
