import Coordination.Proofs.Lock.Calls

/-!
How often a call looks at its key. One call is followed through a run, whatever the others do in
between: it waits for one holder after another, once for each look that found the key held, and its
end comes with the look that finds the key free, with the last one that its limit allows, or when it
gives up or goes away while it waits.
-/

namespace Coordination.Lock

variable {τ : Type}

/-- What a call finds at its looks, one after another: the holder of its key, or nobody. -/
def Locker.finds [DecidableEq τ] (call : Nat) (key : String) (l : Locker τ) :
    List (Label τ) → List (Option τ)
  | [] => []
  | label :: labels =>
    match l.step label with
    | none => []
    | some (m, _) =>
      if label.looks call then l.holder? key :: m.finds call key labels
      else m.finds call key labels

def heldLooks (found : List (Option τ)) : Nat := found.countP Option.isSome

/-- How a call ends, or stands, that has found its key held so many times: what it finds at its last
look, what it is told then, and how it waits if it is not over. -/
inductive Ending (call : Nat) (key : String) (options : Options) (attempts : Nat) :
    List (Option τ) → List (Event τ) → Option (Waiter τ) → Prop where
  | waiting (w : Waiter τ) (own : w.key = key) : Ending call key options attempts [] [] (some w)
  | dropped : Ending call key options attempts [] [] none
  | cancelled : Ending call key options attempts [] [.failed call .cancelled] none
  | granted (token : τ) : Ending call key options attempts [none] [.granted call key token] none
  | failed (holder : τ) (last : options.exhausted (attempts + 1) = true) :
    Ending call key options attempts [some holder] [.failed call .maxAttempts] none

/-- How a call goes on that has found its key held so many times: with an end, or with a look that
finds the key held and begins another wait. -/
inductive Course (call : Nat) (key : String) (options : Options) :
    Nat → List (Option τ) → List (Event τ) → Option (Waiter τ) → Prop where
  | ends {attempts : Nat} {found : List (Option τ)} {told : List (Event τ)}
      {left : Option (Waiter τ)}
    (ending : Ending call key options attempts found told left) :
    Course call key options attempts found told left
  | waits {attempts : Nat} {found : List (Option τ)} {told : List (Event τ)}
    {left : Option (Waiter τ)} (holder : τ) (more : options.exhausted (attempts + 1) = false)
    (rest : Course call key options (attempts + 1) found told left) :
    Course call key options attempts (some holder :: found) (.waits call holder :: told) left

section Course

variable {call : Nat} {key : String} {options : Options} {attempts : Nat}
  {found : List (Option τ)} {told : List (Event τ)} {left : Option (Waiter τ)}

/-- A call waits for one holder after another, and then it ends. -/
theorem Course.holders (h : Course call key options attempts found told left)
    (more : options.exhausted attempts = false) :
    ∃ (holders : List τ) (lastFound : List (Option τ)) (lastTold : List (Event τ)),
      found = holders.map some ++ lastFound ∧ told = holders.map (.waits call) ++ lastTold ∧
      options.exhausted (attempts + holders.length) = false ∧
      Ending call key options (attempts + holders.length) lastFound lastTold left := by
  induction h with
  | ends ending => exact ⟨[], _, _, rfl, rfl, more, ending⟩
  | @waits attempts found told left holder again rest ih =>
      obtain ⟨holders, lastFound, lastTold, rfl, rfl, hmore, ending⟩ := ih again
      have hlength : attempts + (holder :: holders).length = attempts + 1 + holders.length := by
        rw [List.length_cons, Nat.add_assoc, Nat.add_comm 1]
      rw [← hlength] at hmore ending
      exact ⟨holder :: holders, lastFound, lastTold, rfl, rfl, hmore, ending⟩

/-- The key was found held as often as allowed just if there is a limit and it is reached. -/
theorem exhausted_iff : options.exhausted attempts = true ↔
    0 < options.maxAttempts ∧ options.maxAttempts ≤ attempts := decide_eq_true_iff

theorem exhausted_eq_false_iff : options.exhausted attempts = false ↔
    (0 < options.maxAttempts → attempts < options.maxAttempts) := by
  rw [← Bool.not_eq_true, exhausted_iff]
  omega

theorem heldLooks_append (found more : List (Option τ)) :
    heldLooks (found ++ more) = heldLooks found + heldLooks more := List.countP_append

theorem heldLooks_some (holders : List τ) : heldLooks (holders.map some) = holders.length := by
  induction holders with
  | nil => rfl
  | cons holder holders ih => simp_all [heldLooks]

/-- A new call has not found its key held as often as allowed. -/
theorem exhausted_zero (options : Options) : options.exhausted 0 = false :=
  exhausted_eq_false_iff.mpr id

/-- A new call waits for one holder after another, for fewer than its limit allows, and then it
ends. -/
theorem Course.shape (h : Course call key options 0 found told left) :
    ∃ (holders : List τ) (lastFound : List (Option τ)) (lastTold : List (Event τ)),
      found = holders.map some ++ lastFound ∧ told = holders.map (.waits call) ++ lastTold ∧
      (0 < options.maxAttempts → holders.length < options.maxAttempts) ∧
      Ending call key options holders.length lastFound lastTold left := by
  obtain ⟨holders, lastFound, lastTold, hfound, htold, more, ending⟩ :=
    h.holders (exhausted_zero options)
  rw [Nat.zero_add] at more ending
  exact ⟨holders, lastFound, lastTold, hfound, htold, exhausted_eq_false_iff.mp more, ending⟩

/-- A call fails for its limit just if it has found its key held that many times. -/
theorem Course.failed_iff (h : Course call key options 0 found told left) :
    .failed call .maxAttempts ∈ told ↔
      0 < options.maxAttempts ∧ heldLooks found = options.maxAttempts := by
  obtain ⟨holders, lastFound, lastTold, rfl, rfl, more, ending⟩ := h.shape
  rw [heldLooks_append, heldLooks_some]
  cases ending with
  | waiting | dropped | cancelled | granted =>
      simp [heldLooks]
      omega
  | failed holder last =>
      have hlast := exhausted_iff.mp last
      simp [heldLooks]
      omega

/-- A call that fails for its limit does so at its last look, and has waited after all others. -/
theorem Course.failed_last (h : Course call key options 0 found told left)
    (failed : .failed call .maxAttempts ∈ told) :
    ∃ (holders : List τ) (last : τ), holders.length + 1 = options.maxAttempts ∧
      found = (holders ++ [last]).map some ∧
      told = holders.map (.waits call) ++ [.failed call .maxAttempts] ∧ left = none := by
  obtain ⟨holders, lastFound, lastTold, rfl, rfl, more, ending⟩ := h.shape
  cases ending with
  | waiting | dropped | cancelled | granted => simp at failed
  | failed last reached =>
      have hmore := more (exhausted_iff.mp reached).1
      have hreached := (exhausted_iff.mp reached).2
      exact ⟨holders, last, by omega, by simp, rfl, rfl⟩

/-- A call looks at its key no more often than it may find it held. -/
theorem Course.looks_le (h : Course call key options 0 found told left)
    (limited : 0 < options.maxAttempts) : found.length ≤ options.maxAttempts := by
  obtain ⟨holders, lastFound, lastTold, rfl, rfl, more, ending⟩ := h.shape
  have hmore := more limited
  rw [List.length_append, List.length_map]
  cases ending with
  | waiting | dropped | cancelled => exact Nat.le_of_lt hmore
  | granted | failed => exact hmore

/-- A look that finds the key free is the last one, and the call gets the key. -/
theorem Course.free_last (h : Course call key options 0 found told left)
    {before after : List (Option τ)} (free : found = before ++ none :: after) :
    after = [] ∧ ∃ (holders : List τ) (token : τ), before = holders.map some ∧
      told = holders.map (.waits call) ++ [.granted call key token] ∧ left = none := by
  obtain ⟨holders, lastFound, lastTold, rfl, rfl, -, ending⟩ := h.shape
  cases ending with
  | waiting | dropped | cancelled | failed =>
      have hmem : none ∈ before ++ none :: after := by simp
      simp [← free] at hmem
  | granted token =>
      have hheld : (none : Option τ) ∉ holders.map some := by simp
      obtain ⟨rfl, -, rfl⟩ := (List.append_cons_inj_of_notMem hheld List.not_mem_nil).mp free
      exact ⟨rfl, holders, token, rfl, rfl, rfl⟩

/-- A call waits for its own key. -/
theorem Course.own {w : Waiter τ} (h : Course call key options 0 found told (some w)) :
    w.key = key := by
  obtain ⟨holders, lastFound, lastTold, rfl, rfl, -, ending⟩ := h.shape
  cases ending with
  | waiting _ own => exact own

end Course

/-- What a call finds from here on, what it is told and how it waits then: a call that waits takes
its course, and one that does not is over. -/
structure Follows (call : Nat) (key : String) (l : Locker τ) (found : List (Option τ))
    (told : List (Event τ)) (left : Option (Waiter τ)) : Prop where
  waits : ∀ w, l.waiter? call = some w → w.key = key →
    Course call key w.options w.attempts found told left
  gone : l.waiter? call = none → found = [] ∧ told = [] ∧ left = none

section Follows

variable {call : Nat} {key : String} {l : Locker τ} {found : List (Option τ)}
  {told : List (Event τ)} {left : Option (Waiter τ)}

/-- A call looks at its key, and goes on as what it finds there lets it. -/
theorem Follows.attempt {w : Waiter τ} {fresh : τ}
    (h : Follows w.call w.key (l.attempt w fresh).1 found told left)
    (new : l.waiter? w.call = none) :
    Course w.call w.key w.options w.attempts (l.holder? w.key :: found)
      ((l.attempt w fresh).2 ++ told) left := by
  unfold Locker.attempt at h ⊢
  split at h
  · rename_i hfree
    simp only [hfree]
    obtain ⟨rfl, rfl, rfl⟩ := h.gone new
    exact .ends (.granted fresh)
  · rename_i holder hheld
    simp only [hheld]
    split at h
    · rename_i last
      simp only [last, if_true]
      obtain ⟨rfl, rfl, rfl⟩ := h.gone new
      exact .ends (.failed holder last)
    · rename_i more
      rw [Bool.not_eq_true] at more
      simp only [more]
      refine .waits holder more
        (h.waits { w with attempts := w.attempts + 1, signal := holder } ?_ rfl)
      rw [Locker.waiter?] at new
      simp [Locker.waiter?, List.find?_append, new]

variable [DecidableEq τ]

/-- A call is followed through one step more, its own or one of the others. -/
theorem Follows.step {label : Label τ} {o : Locker τ × List (Event τ)}
    (h : Follows call key o.1 found told left) (hstep : l.step label = some o)
    (old : label.opens call = false) :
    Follows call key l (if label.looks call then l.holder? key :: found else found)
      (toldTo call o.2 ++ told) left := by
  by_cases hown : label.call? = some call
  · constructor
    · rintro w hw rfl
      cases label with
      | lock new key options cancelled fresh =>
          obtain rfl := Option.some.inj hown
          simp [Label.opens] at old
      | retry again fresh =>
          obtain rfl := Option.some.inj hown
          obtain ⟨v, hv, -, rfl⟩ := retry_some hstep
          obtain rfl : w = v := Option.some.inj (hw.symm.trans hv)
          obtain ⟨-, rfl⟩ := waiter?_some hw
          have hlooks : (Label.retry w.call fresh).looks w.call = true := decide_eq_true rfl
          rw [toldTo_attempt rfl, if_pos hlooks]
          exact h.attempt (waiter?_forget l w.call)
      | cancel asked =>
          obtain rfl := Option.some.inj hown
          obtain rfl := Option.some.inj hstep
          have hasked : (l.cancel asked).waiter? asked = some { w with cancelled := true } := by
            rw [waiter?_cancel, hw, Option.map_some, if_pos (waiter?_some hw).2]
          exact h.waits { w with cancelled := true } hasked rfl
      | giveUp again =>
          obtain rfl := Option.some.inj hown
          obtain rfl := giveUp_some hstep
          obtain ⟨rfl, rfl, rfl⟩ := h.gone (waiter?_forget l again)
          have htold : toldTo again [Event.failed again .cancelled] =
              [(.failed again .cancelled : Event τ)] := by simp [toldTo, Event.call?]
          rw [htold]
          exact .ends .cancelled
      | drop gone =>
          obtain rfl := Option.some.inj hown
          obtain rfl := Option.some.inj hstep
          obtain ⟨rfl, rfl, rfl⟩ := h.gone (waiter?_forget l gone)
          exact .ends .dropped
      | release | expire | tick => cases hown
    · intro hgone
      obtain ⟨hlooks, htold, hnext⟩ := step_gone hstep hown old hgone
      rw [hlooks, htold]
      exact h.gone hnext
  · have hlooks : label.looks call = false :=
      Bool.eq_false_iff.mpr fun hlooks => hown (call?_of_looks hlooks)
    have hsame : o.1.waiter? call = l.waiter? call := waiter?_others hstep hown
    rw [toldTo_others hstep hown, hlooks]
    exact ⟨fun w hw => h.waits w (hsame.trans hw), fun hgone => h.gone (hsame.trans hgone)⟩

theorem replay_step {m : Locker τ} {label : Label τ} {more : List (Label τ)}
    {history full : List (Event τ)} (h : l.replay history (label :: more) = some (m, full)) :
    ∃ o, l.step label = some o ∧ o.1.replay (history ++ o.2) more = some (m, full) := by
  unfold Locker.replay at h
  split at h
  · split at h
    · cases h
    · rename_i hstep
      exact ⟨_, hstep, h⟩
  · cases h

/-- A call is followed through a run, as long as its number is not used again. -/
theorem replay_follows {m : Locker τ} {more : List (Label τ)} {history full : List (Event τ)}
    (h : l.replay history more = some (m, full))
    (old : ∀ label ∈ more, label.opens call = false) (key : String) :
    ∃ told, toldTo call full = toldTo call history ++ told ∧
      Follows call key l (l.finds call key more) told (m.waiter? call) := by
  induction more generalizing l history with
  | nil =>
      obtain ⟨rfl, rfl⟩ : l = m ∧ history = full := by simpa [Locker.replay] using h
      refine ⟨[], (List.append_nil _).symm, ?_, ?_⟩
      · intro w hw own
        rw [hw]
        exact .ends (.waiting w own)
      · intro hgone
        rw [hgone]
        exact ⟨rfl, rfl, rfl⟩
  | cons label more ih =>
      obtain ⟨o, hstep, hrest⟩ := replay_step h
      obtain ⟨told, htold, hfollows⟩ :=
        ih hrest fun next hnext => old next (List.mem_cons_of_mem label hnext)
      refine ⟨toldTo call o.2 ++ told, ?_, ?_⟩
      · rw [htold, toldTo_append, List.append_assoc]
      · have hfinds : l.finds call key (label :: more) =
            if label.looks call then l.holder? key :: o.1.finds call key more
            else o.1.finds call key more := by
          simp only [Locker.finds, hstep]
        rw [hfinds]
        exact hfollows.step hstep (old label List.mem_cons_self)

/-- A new call takes its course from its first look on. -/
theorem replay_lock {m : Locker τ} {options : Options} {cancelled : Bool} {fresh : τ}
    {more : List (Label τ)} {history later : List (Event τ)}
    (h : l.replay history (.lock call key options cancelled fresh :: more) =
      some (m, history ++ later))
    (old : ∀ label ∈ more, label.opens call = false) :
    Course call key options 0
      (l.finds call key (.lock call key options cancelled fresh :: more)) (toldTo call later)
      (m.waiter? call) := by
  obtain ⟨o, hstep, hrest⟩ := replay_step h
  obtain ⟨told, htold, hfollows⟩ := replay_follows hrest old key
  obtain ⟨new, rfl⟩ := lock_some hstep
  have hlook : toldTo call (l.attempt ⟨call, key, options, 0, fresh, cancelled⟩ fresh).2 =
      (l.attempt ⟨call, key, options, 0, fresh, cancelled⟩ fresh).2 := toldTo_attempt rfl
  rw [toldTo_append, toldTo_append, hlook, List.append_assoc, List.append_cancel_left_eq] at htold
  have hfinds : l.finds call key (.lock call key options cancelled fresh :: more) =
      l.holder? key :: Locker.finds call key
        (l.attempt ⟨call, key, options, 0, fresh, cancelled⟩ fresh).1 more := by
    simp [Locker.finds, hstep, Label.looks]
  rw [hfinds, htold]
  exact hfollows.attempt (w := ⟨call, key, options, 0, fresh, cancelled⟩) new

end Follows

section Run

variable [DecidableEq τ] {l : Locker τ} {labels : List (Label τ)} {history : List (Event τ)}

/-- A waiting call whose key is free has been woken, and gets the key at its next look. -/
theorem Run.retry_free (run : Run l labels history) {w : Waiter τ} (hw : w ∈ l.waiting)
    (free : l.holder? w.key = none) (fresh : τ) :
    ∃ m, l.step (.retry w.call fresh) = some (m, [.granted w.call w.key fresh]) := by
  obtain ⟨call, hcall⟩ := run.signal_granted w hw
  have hnot : l.holder? w.key ≠ some w.signal := by simp [free]
  have hwoken : l.signalled w.signal = true :=
    signalled_iff.mpr ((run.held_or_released hcall).resolve_left hnot)
  have hfree : (l.forget w.call).holder? w.key = none := free
  rw [retry_woken run.calls_nodup hw hwoken fresh, Locker.attempt, hfree]
  exact ⟨_, rfl⟩

/-- A call with a limit, whatever is done in between by others. It fails for its limit just if it
has found its key held that many times, and then it has not given up before. When it fails, it has
waited once less, and it waits no more. It looks at its key no more often than the limit. Without a
limit it never fails for one. A look that finds the key free is its last and gets it the key; and
while it waits for a key that is free, it can look, also when its caller has asked it to give up. -/
theorem attempt_limit {m : Locker τ} (run : Run l labels history) {call : Nat} {key : String}
    {options : Options} {cancelled : Bool} {fresh : τ} {more : List (Label τ)}
    {later : List (Event τ)} {found : List (Option τ)}
    (goes : l.replay history (.lock call key options cancelled fresh :: more) =
      some (m, history ++ later))
    (old : ∀ label ∈ more, label.opens call = false)
    (finds : l.finds call key (.lock call key options cancelled fresh :: more) = found) :
    (0 < options.maxAttempts →
      (.failed call .maxAttempts ∈ later ↔ heldLooks found = options.maxAttempts) ∧
      (heldLooks found = options.maxAttempts → .failed call .cancelled ∉ later) ∧
      (.failed call .maxAttempts ∈ later → ∃ (holders : List τ) (last : τ),
        holders.length = options.maxAttempts - 1 ∧ found = (holders ++ [last]).map some ∧
        toldTo call later = holders.map (.waits call) ++ [.failed call .maxAttempts] ∧
        m.waiter? call = none) ∧
      found.length ≤ options.maxAttempts) ∧
    (options.maxAttempts = 0 → .failed call .maxAttempts ∉ later) ∧
    (∀ before after, found = before ++ none :: after →
      after = [] ∧ ∃ (holders : List τ) (token : τ), before = holders.map some ∧
        toldTo call later = holders.map (.waits call) ++ [.granted call key token]) ∧
    ((m.waiter? call).isSome = true → m.holder? key = none →
      ∀ next, ∃ n, m.step (.retry call next) = some (n, [.granted call key next])) := by
  subst finds
  have hcourse := replay_lock goes old
  have hfailed (error : Error) : .failed call error ∈ later ↔
      .failed call error ∈ toldTo call later := by simp [toldTo, Event.call?]
  simp only [hfailed]
  refine ⟨fun limited => ⟨?_, ?_, ?_, hcourse.looks_le limited⟩, ?_, ?_, ?_⟩
  · rw [hcourse.failed_iff]
    exact and_iff_right limited
  · intro hheld
    obtain ⟨holders, last, -, -, htold, -⟩ :=
      hcourse.failed_last (hcourse.failed_iff.mpr ⟨limited, hheld⟩)
    simp [htold]
  · intro failed
    obtain ⟨holders, last, hlength, hfound, htold, hover⟩ := hcourse.failed_last failed
    exact ⟨holders, last, by omega, hfound, htold, hover⟩
  · intro hunlimited failed
    have hlimited := (hcourse.failed_iff.mp failed).1
    omega
  · intro before after hfree
    obtain ⟨hlast, holders, token, hbefore, htold, -⟩ := hcourse.free_last hfree
    exact ⟨hlast, holders, token, hbefore, htold⟩
  · intro hwaits free next
    obtain ⟨w, hw⟩ := Option.isSome_iff_exists.mp hwaits
    obtain ⟨hmem, rfl⟩ := waiter?_some hw
    rw [hw] at hcourse
    obtain rfl := hcourse.own
    exact (run.replay goes).retry_free hmem free next

/-- A call that may look three times is woken twice, finds the key taken again each time, and fails
at its third look. Its caller has asked it to give up by then, but that look came first. -/
def beatenSteps : List (Label Nat) :=
  [.release "a" 10, .lock 2 "a" {} false 12, .retry 1 13, .cancel 1, .lock 3 "a" {} false 14,
    .release "a" 12, .retry 3 15, .retry 1 16]

theorem attempt_limit_beaten : ∃ (l m : Locker Nat) (history later : List (Event Nat)),
    Run l [.lock 0 "a" {} false 10] history ∧
    l.replay history (.lock 1 "a" { maxAttempts := 3 } false 11 :: beatenSteps) =
      some (m, history ++ later) ∧
    l.finds 1 "a" (.lock 1 "a" { maxAttempts := 3 } false 11 :: beatenSteps) =
      [some 10, some 12, some 15] ∧
    .failed 1 .maxAttempts ∈ later ∧ .failed 1 .cancelled ∉ later ∧
    toldTo 1 later = [.waits 1 10, .waits 1 12, .failed 1 .maxAttempts] := by
  let later : List (Event Nat) :=
    [.waits 1 10, .removed "a" 10, .granted 2 "a" 12, .waits 1 12, .waits 3 12, .removed "a" 12,
      .granted 3 "a" 15, .failed 1 .maxAttempts]
  let l : Locker Nat := { records := [("a", 10)] }
  have run : Run l ([] ++ [.lock 0 "a" {} false 10]) [.granted 0 "a" 10] := Run.start.replay rfl
  have goes : l.replay [.granted 0 "a" 10]
      (.lock 1 "a" { maxAttempts := 3 } false 11 :: beatenSteps) =
      some (_, [.granted 0 "a" 10] ++ later) := rfl
  obtain ⟨hlimited, -⟩ := attempt_limit run goes (by decide) rfl
  obtain ⟨hfails, hnot, -⟩ := hlimited (by decide)
  exact ⟨l, _, _, later, run, goes, by decide, hfails.mpr (by decide), hnot (by decide), by decide⟩

end Run

end Coordination.Lock
