import Mathlib.Data.List.Induction
import Coordination.Proofs.Boost.Backoff
import Coordination.Proofs.Boost.Decision

/-!
A herd of blocked pushes. Each of them had read the block timeout at some moment, none more than
`t`, and as long as no boost ends they are granted at most one boost for every doubling that it
takes to bring the timeout above `t`. What else the controller is told in between, of workers that
come and go, of other limits and settings, makes no difference: none of it touches the timeout. A
call that breaks off doubles the timeout without a boost, which leaves fewer boosts to be granted.
-/

namespace Coordination.Boost

/-- The event is not the end of a boost, and a push that is told of had read at most `t`. -/
def Event.Herded (t : Duration) : Event → Prop
  | .blocked observed => observed ≤ t
  | .expired => False
  | .started _ | .stopped | .setMaxWorkers _ | .manage _ _ _ => True

instance Event.decidableHerded (t : Duration) : (e : Event) → Decidable (e.Herded t)
  | .blocked observed => inferInstanceAs (Decidable (observed ≤ t))
  | .expired => inferInstanceAs (Decidable False)
  | .started _ | .stopped | .setMaxWorkers _ | .manage _ _ _ => inferInstanceAs (Decidable True)

/-- Blocked pushes that had read at most `t`, with anything in between but the end of a boost. -/
def Herd (t : Duration) (events : List Event) : Prop := ∀ e ∈ events, e.Herded t

instance decidableHerd (t : Duration) (events : List Event) : Decidable (Herd t events) :=
  inferInstanceAs (Decidable (∀ e ∈ events, e.Herded t))

/-- How many boosts are granted during these events. -/
def Controller.boosts (s : Controller) (events : List Event) : Nat :=
  (s.turns events).count .granted

/-- How often the timeout is doubled during these events. -/
def Controller.doublings (s : Controller) (events : List Event) : Nat :=
  (s.turns events).countP fun turn => turn ≠ .expired

theorem Controller.boosts_le_doublings (s : Controller) (events : List Event) :
    s.boosts events ≤ s.doublings events :=
  List.countP_mono_left fun turn _ h => by
    obtain rfl : turn = .granted := by simpa using h
    rfl

theorem Controller.doublings_append (s : Controller) (es fs : List Event) :
    s.doublings (es ++ fs) = s.doublings es + (s.run es).doublings fs := by
  rw [doublings, turns_append, List.countP_append]
  rfl

theorem Controller.doublings_singleton (s : Controller) (e : Event) :
    s.doublings [e] = if s.doubles e then 1 else 0 := by
  rw [doublings, turns, turns, List.append_nil, doubles]
  rcases s.turn? e with _ | _ | _ | _ <;> rfl

theorem Herd.append {t : Duration} {es fs : List Event} (h : Herd t (es ++ fs)) :
    Herd t es ∧ Herd t fs := List.forall_mem_append.mp h

/-- As long as no boost ends, the timeout is doubled or left alone. -/
theorem Event.Herded.step {t : Duration} {e : Event} (h : e.Herded t) (s : Controller) :
    (s.step e).1.block = if s.doubles e then s.block.double else s.block := by
  rcases step_timeouts s e with ⟨hturn, workers, hnew⟩ | ⟨hturn, hnew⟩ | ⟨rfl, -⟩ |
    ⟨hturn, hblock, -⟩
  · rw [hnew, if_pos (by simp [Controller.doubles, hturn])]
    rfl
  · rw [hnew, if_pos (by simp [Controller.doubles, hturn])]
    rfl
  · exact h.elim
  · rw [hblock, if_neg (by simp [Controller.doubles, hturn])]

/-- The timeout is not doubled for a push that had read less than it. -/
theorem Event.Herded.block_le {t : Duration} {e : Event} (h : e.Herded t) {s : Controller}
    (doubles : s.doubles e) : s.block ≤ t := by
  obtain ⟨observed, rfl, ⟨workers, lifetime, hanswer⟩ | hanswer⟩ := turn_doubles doubles
  · have hreached : s.block ≤ observed := (boost_cases (Option.some.inj hanswer)).1.2.1
    exact Nat.le_trans hreached h
  · have hreached : s.block ≤ observed := (overflow_cases (Option.some.inj hanswer)).1.2.1
    exact Nat.le_trans hreached h

/-- A doubling after some that were cut off is cut off as well. -/
theorem min_doubled (b n M : Nat) : min (2 * min (b * 2 ^ n) M) M = min (b * 2 ^ (n + 1)) M := by
  have hpow : b * 2 ^ (n + 1) = 2 * (b * 2 ^ n) := by ring
  rw [hpow]
  omega

/-- The timeout is doubled time and again, up to the longest span. -/
theorem Herd.run_block {t : Duration} {events : List Event} (herd : Herd t events)
    (s : Controller) :
    (s.run events).block.nanos =
      min (s.block.nanos * 2 ^ s.doublings events) Duration.maxNanos := by
  induction events using List.reverseRecOn with
  | nil =>
      have hmax := s.block.le_max
      simp [Controller.doublings, Controller.turns, hmax]
  | append_singleton events e ih =>
      obtain ⟨hevents, he⟩ := herd.append
      have hlast : e.Herded t := he e (List.mem_singleton_self e)
      rw [Controller.run_append, Controller.run_cons, Controller.run_nil, hlast.step,
        Controller.doublings_append, Controller.doublings_singleton]
      split
      · rw [Duration.nanos_double, ih hevents]
        exact min_doubled _ _ _
      · exact ih hevents

/-- As long as the timeout is not above `t` it has been doubled less than `k` times. -/
theorem Herd.doublings_lt {t : Duration} {events : List Event} (herd : Herd t events)
    (short : t < Duration.longest) {s : Controller} {k : Nat}
    (above : t.nanos < s.block.nanos * 2 ^ k) (reached : (s.run events).block ≤ t) :
    s.doublings events < k := by
  have hcut : t.nanos < Duration.maxNanos := short
  have hblock : min (s.block.nanos * 2 ^ s.doublings events) Duration.maxNanos ≤ t.nanos :=
    herd.run_block s ▸ reached
  have hlow : s.block.nanos * 2 ^ s.doublings events ≤ t.nanos := by omega
  have hpow : 2 ^ s.doublings events < 2 ^ k := Nat.lt_of_mul_lt_mul_left (hlow.trans_lt above)
  exact (Nat.pow_lt_pow_iff_right one_lt_two).mp hpow

theorem Herd.doublings_le {t : Duration} {events : List Event} (herd : Herd t events)
    (short : t < Duration.longest) {s : Controller} {k : Nat}
    (above : t.nanos < s.block.nanos * 2 ^ k) : s.doublings events ≤ k := by
  induction events using List.reverseRecOn with
  | nil => exact Nat.zero_le k
  | append_singleton events e ih =>
      obtain ⟨hevents, he⟩ := herd.append
      rw [Controller.doublings_append, Controller.doublings_singleton]
      split
      · rename_i hdoubles
        have hlast : e.Herded t := he e (List.mem_singleton_self e)
        exact hevents.doublings_lt short above (hlast.block_le hdoubles)
      · exact ih hevents

/-- After `k` boosts every further blocked push is turned away: nothing changes, and the answer is
that the timeout has been escalated or that boosting is off. -/
def Controller.TurnsAwayAfter (s : Controller) (k : Nat) (events : List Event) : Prop :=
  ∀ before observed after, events = before ++ .blocked observed :: after → k ≤ s.boosts before →
    ((s.run before).blocked observed).1 = s.run before ∧
      ((s.run before).blocked observed).2 ∈ [.alreadyEscalated, .disabled]

theorem blocked_of_lt {s : Controller} {observed : Duration} (past : observed < s.block) :
    (s.blocked observed).1 = s ∧ (s.blocked observed).2 ∈ [.alreadyEscalated, .disabled] := by
  have hdecides := s.blocked_decides observed
  generalize s.blocked observed = outcome at hdecides
  cases hdecides with
  | disabled | alreadyEscalated => simp
  | atCapacity on reached | overflow on reached | boost on reached =>
      exact absurd past (Nat.not_lt.mpr reached)

theorem Herd.turnsAwayAfter {t : Duration} {events : List Event} (herd : Herd t events)
    (short : t < Duration.longest) {s : Controller} {k : Nat}
    (above : t.nanos < s.block.nanos * 2 ^ k) : s.TurnsAwayAfter k events := by
  rintro before observed after rfl hboosts
  obtain ⟨hbefore, hafter⟩ := herd.append
  have hobserved : observed ≤ t := hafter _ List.mem_cons_self
  have hpast : t < (s.run before).block := by
    by_contra hnot
    have hfew := hbefore.doublings_lt short above (Nat.not_lt.mp hnot)
    have hle := s.boosts_le_doublings before
    omega
  exact blocked_of_lt (Nat.lt_of_le_of_lt hobserved hpast)

/-- A herd that had read at most `t` is granted no more than `k` boosts when `k` doublings bring
the block timeout above `t`, and after that many boosts every further push is turned away. So a
herd that had read no more than the timeout itself is granted one. The longest span is left out, as
no doubling gets above it. -/
theorem herd_boosts_once_per_doubling {s : Controller} {t : Duration} {events : List Event}
    (herd : Herd t events) (short : t < Duration.longest) :
    (∀ k, t.nanos < s.block.nanos * 2 ^ k → s.boosts events ≤ k ∧ s.TurnsAwayAfter k events) ∧
    (s.block ≠ Duration.zero → t ≤ s.block →
      s.boosts events ≤ 1 ∧ s.TurnsAwayAfter 1 events) := by
  have hboosts {k : Nat} (above : t.nanos < s.block.nanos * 2 ^ k) : s.boosts events ≤ k :=
    (s.boosts_le_doublings events).trans (herd.doublings_le short above)
  constructor
  · intro k above
    exact ⟨hboosts above, herd.turnsAwayAfter short above⟩
  · intro hset hread
    have hpos : s.block.nanos ≠ 0 := fun hzero => hset (Duration.ext_nanos hzero)
    have hread : t.nanos ≤ s.block.nanos := hread
    have above : t.nanos < s.block.nanos * 2 ^ 1 := by omega
    exact ⟨hboosts above, herd.turnsAwayAfter short above⟩

/-- A block timeout of 50 ns, and boosts of one worker. -/
def stampedeConfig : Pool.Config where
  blockTimeout := .ofNanos 50
  boostTimeout := .ofNanos 200
  boostWorkers := 1

/-- Six pushes of which none had read more than 199 ns, among other things. -/
def stampedeEvents : List Event :=
  [.blocked (.ofNanos 50), .blocked (.ofNanos 50), .started 3, .blocked (.ofNanos 150), .stopped,
    .blocked (.ofNanos 199), .manage 2 (some 1) (.ofNanos 300), .blocked (.ofNanos 50),
    .setMaxWorkers none, .blocked (.ofNanos 199)]

/-- Two doublings bring the timeout to 200 ns, and both are used. The sixth push is turned away. -/
theorem herd_boosts_once_per_doubling_stampede :
    let s := Controller.ofConfig stampedeConfig
    Herd (.ofNanos 199) stampedeEvents ∧ Duration.ofNanos 199 < Duration.longest ∧
    s.boosts stampedeEvents = 2 ∧ s.boosts stampedeEvents ≤ 2 ∧
    ((s.run (stampedeEvents.take 9)).blocked (.ofNanos 199)).2 ∈
      [.alreadyEscalated, .disabled] := by
  intro s
  have herd : Herd (.ofNanos 199) stampedeEvents := by decide
  have short : Duration.ofNanos 199 < Duration.longest := by decide
  obtain ⟨hdoubled, -⟩ := herd_boosts_once_per_doubling (s := s) herd short
  obtain ⟨hle, haway⟩ := hdoubled 2 (by decide)
  obtain ⟨-, hanswer⟩ := haway (stampedeEvents.take 9) (.ofNanos 199) [] rfl (by decide)
  exact ⟨herd, short, by decide, hle, hanswer⟩

end Coordination.Boost
