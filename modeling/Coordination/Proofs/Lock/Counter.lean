import Mathlib.Data.List.Perm.Subperm
import Coordination.Proofs.Lock.Attempts

/-!
The counter of a waiting call. It goes up by one at each look that finds the key held, and each such
look finds another holder. With a limit the call is over before the counter is full. Without one
nothing but the number of those who beat the call to its key bounds the counter, and enough of them
take it past any word.
-/

namespace Coordination.Lock

/-- How many values the counter of a call has. -/
def counterSize : Nat := 4294967296

variable {τ : Type}

def Locker.count (l : Locker τ) (call : Nat) : Nat := (l.waiter? call).elim 0 Waiter.attempts

/-- What the counter of a call has to be raised to, one look after another. -/
def Locker.raises [DecidableEq τ] (call : Nat) (key : String) (l : Locker τ) :
    List (Label τ) → List Nat
  | [] => []
  | label :: labels =>
    match l.step label with
    | none => []
    | some (m, _) =>
      if label.looks call ∧ l.isLocked key then (l.count call + 1) :: m.raises call key labels
      else m.raises call key labels

def holders (found : List (Option τ)) : List τ := found.filterMap id

theorem heldLooks_eq_length (found : List (Option τ)) : heldLooks found = (holders found).length :=
  List.length_filterMap_eq_countP.symm

theorem count_waiting {l : Locker τ} {call : Nat} {w : Waiter τ} (h : l.waiter? call = some w) :
    l.count call = w.attempts := by rw [Locker.count, h, Option.elim_some]

theorem count_gone {l : Locker τ} {call : Nat} (h : l.waiter? call = none) : l.count call = 0 := by
  rw [Locker.count, h, Option.elim_none]

/-- A call that waits after a look has found its key held, waits for that holder and has counted the
look. -/
theorem waiter?_attempt {l : Locker τ} {w v : Waiter τ} {fresh : τ}
    (new : l.waiter? w.call = none) (hv : (l.attempt w fresh).1.waiter? w.call = some v) :
    l.holder? w.key = some v.signal ∧ v.key = w.key ∧ v.attempts = w.attempts + 1 := by
  unfold Locker.attempt at hv
  split at hv
  · have hnone := new.symm.trans hv
    cases hnone
  · rename_i holder hheld
    split at hv
    · have hnone := new.symm.trans hv
      cases hnone
    · rw [Locker.waiter?] at new
      obtain rfl : { w with attempts := w.attempts + 1, signal := holder } = v := by
        simpa [Locker.waiter?, List.find?_append, new] using hv
      exact ⟨hheld, rfl, rfl⟩

/-- What a call finds from here on and what its counter is raised to on the way. The counter goes up
by one for each holder that is found; the holders are all different, and neither is done with the
key yet nor the one that the call waits for. -/
structure Chase (call : Nat) (l : Locker τ) (found : List (Option τ)) (raised : List Nat)
    (left : Option (Waiter τ)) : Prop where
  raised_eq : raised = List.range' (l.count call + 1) (heldLooks found)
  attempts_eq : ∀ w, left = some w → w.attempts = l.count call + heldLooks found
  nodup : (holders found).Nodup
  unreleased : ∀ token ∈ holders found, token ∉ l.released
  others : ∀ w, l.waiter? call = some w → w.signal ∉ holders found

section Chase

variable {l m : Locker τ} {call : Nat} {key : String} {found : List (Option τ)} {raised : List Nat}
  {left : Option (Waiter τ)}

/-- A call that does not look any more is over, or waits as it does now. -/
theorem Chase.over (same : ∀ w, left = some w → l.waiter? call = some w) :
    Chase call l [] [] left where
  raised_eq := rfl
  attempts_eq := fun w hw => (count_waiting (same w hw)).symm
  nodup := List.nodup_nil
  unreleased := nofun
  others := fun _ _ => List.not_mem_nil

/-- A look that finds the key free is not counted. -/
theorem Chase.free (l : Locker τ) (call : Nat) : Chase call l [none] [] none where
  raised_eq := rfl
  attempts_eq := nofun
  nodup := List.nodup_nil
  unreleased := nofun
  others := fun _ _ => List.not_mem_nil

/-- A look that finds the key held raises the counter, by one holder more than are found later. -/
theorem Chase.held {holder : τ} (new : holder ∉ l.released)
    (woken : ∀ w, l.waiter? call = some w → w.signal ∈ l.released)
    (raised_eq : raised = List.range' (l.count call + 2) (heldLooks found))
    (attempts_eq : ∀ w, left = some w → w.attempts = l.count call + 1 + heldLooks found)
    (nodup : (holder :: holders found).Nodup)
    (unreleased : ∀ token ∈ holders found, token ∉ l.released) :
    Chase call l (some holder :: found) ((l.count call + 1) :: raised) left := by
  have hheld : heldLooks (some holder :: found) = heldLooks found + 1 := by simp [heldLooks]
  have hholders : holders (some holder :: found) = holder :: holders found := rfl
  have hunreleased : ∀ token ∈ holder :: holders found, token ∉ l.released :=
    List.forall_mem_cons.mpr ⟨new, unreleased⟩
  constructor
  · rw [hheld, raised_eq, List.range'_succ]
  · intro w hw
    rw [attempts_eq w hw, hheld]
    omega
  · rwa [hholders]
  · rwa [hholders]
  · intro w hw hmem
    rw [hholders] at hmem
    exact hunreleased _ hmem (woken w hw)

/-- A call that looks at its key is followed from there on. -/
theorem Chase.look (h : Chase call m found raised left)
    (gone : m.waiter? call = none → found = [] ∧ raised = [] ∧ left = none)
    (waits : ∀ v, m.waiter? call = some v →
      l.holder? key = some v.signal ∧ v.attempts = l.count call + 1)
    (woken : ∀ w, l.waiter? call = some w → w.signal ∈ l.released)
    (new : ∀ token, l.holder? key = some token → token ∉ l.released)
    (kept : ∀ token ∈ l.released, token ∈ m.released) :
    Chase call l (l.holder? key :: found)
      (if l.isLocked key then (l.count call + 1) :: raised else raised) left := by
  unfold Locker.isLocked
  -- Whether the key was held does not show in `m` if the call has gone: that case is split again.
  cases hv : m.waiter? call with
  | none =>
      obtain ⟨rfl, rfl, rfl⟩ := gone hv
      cases hheld : l.holder? key with
      | none => exact .free l call
      | some holder =>
          exact .held (new holder hheld) woken rfl nofun (List.nodup_singleton holder) nofun
  | some v =>
      obtain ⟨hheld, hattempts⟩ := waits v hv
      have hcount : m.count call = l.count call + 1 := (count_waiting hv).trans hattempts
      have hraised := h.raised_eq
      have hleft := h.attempts_eq
      rw [hcount] at hraised hleft
      rw [hheld]
      exact .held (new v.signal hheld) woken hraised hleft
        (List.nodup_cons.mpr ⟨h.others v hv, h.nodup⟩)
        fun token hfound hreleased => h.unreleased token hfound (kept token hreleased)

/-- A call that does not look is followed as before. -/
theorem Chase.between (h : Chase call m found raised left)
    (gone : m.waiter? call = none → found = [] ∧ raised = [] ∧ left = none)
    (waits : ∀ v, m.waiter? call = some v →
      ∃ w, l.waiter? call = some w ∧ v.signal = w.signal ∧ v.attempts = w.attempts)
    (kept : ∀ token ∈ l.released, token ∈ m.released) : Chase call l found raised left := by
  cases hv : m.waiter? call with
  | none =>
      obtain ⟨rfl, rfl, rfl⟩ := gone hv
      exact .over nofun
  | some v =>
      obtain ⟨w, hw, hsignal, hattempts⟩ := waits v hv
      have hcount : l.count call = m.count call := by
        rw [count_waiting hw, count_waiting hv, hattempts]
      constructor
      · rw [hcount]
        exact h.raised_eq
      · rw [hcount]
        exact h.attempts_eq
      · exact h.nodup
      · exact fun token hfound hreleased => h.unreleased token hfound (kept token hreleased)
      · rintro _ hsame
        obtain rfl := Option.some.inj (hw.symm.trans hsame)
        rw [← hsignal]
        exact h.others v hv

end Chase

variable [DecidableEq τ]

section Step

variable {l : Locker τ} {label : Label τ} {o : Locker τ × List (Event τ)} {call : Nat}

/-- A call that looks again has been woken, and if it waits on, then for another holder. -/
theorem waiter?_again (h : l.step label = some o) (looks : label.looks call = true)
    (old : label.opens call = false) :
    ∃ w, l.waiter? call = some w ∧ w.signal ∈ l.released ∧
      ∀ v, o.1.waiter? call = some v →
        l.holder? w.key = some v.signal ∧ v.key = w.key ∧ v.attempts = w.attempts + 1 := by
  cases label with
  | lock new key options cancelled fresh =>
      rw [Label.looks] at looks
      rw [Label.opens, looks] at old
      cases old
  | retry again fresh =>
      obtain rfl : again = call := of_decide_eq_true looks
      obtain ⟨w, hw, hwoken, rfl⟩ := retry_some h
      obtain ⟨-, rfl⟩ := waiter?_some hw
      refine ⟨w, hw, signalled_iff.mp hwoken, fun v hv => ?_⟩
      have hlook := waiter?_attempt (waiter?_forget l w.call) hv
      exact hlook
  | cancel | giveUp | drop | release | expire | tick => cases looks

/-- Between its looks a call keeps its key, its holder and its counter. -/
theorem waiter?_between (h : l.step label = some o) (still : label.looks call = false)
    {v : Waiter τ} (hv : o.1.waiter? call = some v) :
    ∃ w, l.waiter? call = some w ∧ v.key = w.key ∧ v.signal = w.signal ∧
      v.attempts = w.attempts := by
  by_cases hown : label.call? = some call
  · cases label with
    | lock | retry =>
        obtain rfl := Option.some.inj hown
        simp [Label.looks] at still
    | cancel asked =>
        obtain rfl := Option.some.inj hown
        obtain rfl := Option.some.inj h
        rw [waiter?_cancel] at hv
        obtain ⟨w, hw, rfl⟩ := Option.map_eq_some_iff.mp hv
        rw [if_pos (waiter?_some hw).2]
        exact ⟨w, hw, rfl, rfl, rfl⟩
    | giveUp again =>
        obtain rfl := Option.some.inj hown
        obtain rfl := giveUp_some h
        have hnone := (waiter?_forget l again).symm.trans hv
        cases hnone
    | drop gone =>
        obtain rfl := Option.some.inj hown
        obtain rfl := Option.some.inj h
        have hnone := (waiter?_forget l gone).symm.trans hv
        cases hnone
    | release | expire | tick => cases hown
  · rw [waiter?_others h hown] at hv
    exact ⟨v, hv, rfl, rfl, rfl⟩

/-- A signal that has fired stays so. -/
theorem released_kept (h : l.step label = some o) : ∀ token ∈ l.released, token ∈ o.1.released :=
  fun token hreleased => (step_released h token).mpr (.inl hreleased)

end Step

section Replay

variable {l m : Locker τ} {label : Label τ} {labels more : List (Label τ)}
  {history full : List (Event τ)} {call : Nat} {key : String}

/-- The counter is raised once for each look that finds the key held. -/
theorem raises_length (call : Nat) (key : String) (l : Locker τ) (labels : List (Label τ)) :
    (l.raises call key labels).length = heldLooks (l.finds call key labels) := by
  induction labels generalizing l with
  | nil => rfl
  | cons label labels ih =>
      unfold Locker.raises Locker.finds
      cases l.step label with
      | none => rfl
      | some o =>
          cases label.looks call with
          | false => simpa using ih o.1
          | true =>
              cases hheld : l.holder? key with
              | none => simpa [Locker.isLocked, hheld, heldLooks] using ih o.1
              | some holder => simpa [Locker.isLocked, hheld, heldLooks] using ih o.1

/-- A replay goes on from where its first step leads. -/
theorem Run.replay_next (run : Run l labels history)
    (h : l.replay history (label :: more) = some (m, full)) :
    ∃ o, l.step label = some o ∧ Run o.1 (labels ++ [label]) (history ++ o.2) ∧
      o.1.replay (history ++ o.2) more = some (m, full) := by
  obtain ⟨o, hstep, hrest⟩ := replay_step h
  have fresh : Fresh label history := by
    by_contra stale
    rw [Locker.replay, if_neg stale] at h
    cases h
  exact ⟨o, hstep, run.next fresh hstep, hrest⟩

/-- A call that does not wait is over, as long as its number is not used again. -/
theorem replay_gone (h : l.replay history more = some (m, full))
    (old : ∀ label ∈ more, label.opens call = false) (key : String)
    (hgone : l.waiter? call = none) :
    l.finds call key more = [] ∧ l.raises call key more = [] ∧ m.waiter? call = none := by
  obtain ⟨told, -, hfollows⟩ := replay_follows h old key
  obtain ⟨hfound, -, hleft⟩ := hfollows.gone hgone
  have hlength := raises_length call key l more
  rw [hfound] at hlength
  exact ⟨hfound, List.length_eq_zero_iff.mp hlength, hleft⟩

theorem Run.holder_not_released (run : Run l labels history) {token : τ}
    (held : l.holder? key = some token) : token ∉ l.released :=
  run.owner_not_released ((holder?_eq_some run.recorded.keys_nodup).mp held)

/-- A waiting call is followed through a run. -/
theorem Run.chase (run : Run l labels history) (h : l.replay history more = some (m, full))
    (old : ∀ label ∈ more, label.opens call = false)
    (own : ∀ w, l.waiter? call = some w → w.key = key) :
    Chase call l (l.finds call key more) (l.raises call key more) (m.waiter? call) := by
  -- The induction goes the way of `finds` and `raises`; a call keeps its key (`own`) at every step.
  induction more generalizing l labels history with
  | nil =>
      obtain ⟨rfl, rfl⟩ : l = m ∧ history = full := by simpa [Locker.replay] using h
      exact .over fun w hw => hw
  | cons label more ih =>
      obtain ⟨o, hstep, hrun, hrest⟩ := run.replay_next h
      have holdLabel := old label List.mem_cons_self
      have holdMore : ∀ next ∈ more, next.opens call = false :=
        fun next hnext => old next (List.mem_cons_of_mem label hnext)
      have hgone := replay_gone hrest holdMore key
      have hkept := released_kept hstep
      unfold Locker.finds Locker.raises
      rw [hstep]
      by_cases hlooks : label.looks call = true
      · obtain ⟨w, hw, hwoken, hnext⟩ := waiter?_again hstep hlooks holdLabel
        obtain rfl := own w hw
        have hchase := ih hrun hrest holdMore fun v hv => (hnext v hv).2.1
        simp only [hlooks, true_and, if_true]
        refine hchase.look hgone ?_ ?_ (fun token => run.holder_not_released) hkept
        · intro v hv
          obtain ⟨hheld, -, hattempts⟩ := hnext v hv
          exact ⟨hheld, by rw [hattempts, count_waiting hw]⟩
        · intro v hv
          obtain rfl := Option.some.inj (hw.symm.trans hv)
          exact hwoken
      · rw [Bool.not_eq_true] at hlooks
        simp only [hlooks, Bool.false_eq_true, false_and, if_false]
        have hnext (v : Waiter τ) (hv : o.1.waiter? call = some v) :=
          waiter?_between hstep hlooks hv
        have hchase := ih hrun hrest holdMore fun v hv => by
          obtain ⟨w, hw, hkey, -⟩ := hnext v hv
          exact hkey.trans (own w hw)
        refine hchase.between hgone (fun v hv => ?_) hkept
        obtain ⟨w, hw, -, hsame⟩ := hnext v hv
        exact ⟨w, hw, hsame⟩

/-- A new call is followed from its first look on, with its counter at zero. -/
theorem Run.chase_lock {options : Options} {cancelled : Bool} {fresh : τ}
    (run : Run l labels history)
    (h : l.replay history (.lock call key options cancelled fresh :: more) = some (m, full))
    (old : ∀ label ∈ more, label.opens call = false) :
    l.waiter? call = none ∧
      Chase call l (l.finds call key (.lock call key options cancelled fresh :: more))
        (l.raises call key (.lock call key options cancelled fresh :: more)) (m.waiter? call) := by
  obtain ⟨o, hstep, hrun, hrest⟩ := run.replay_next h
  have hgone := replay_gone hrest old key
  have hlooks : (Label.lock call key options cancelled fresh).looks call = true :=
    decide_eq_true rfl
  unfold Locker.finds Locker.raises
  simp only [hstep, hlooks, true_and, if_true]
  obtain ⟨new, rfl⟩ := lock_some hstep
  have hnext (v : Waiter τ)
      (hv : (l.attempt ⟨call, key, options, 0, fresh, cancelled⟩ fresh).1.waiter? call = some v) :
      l.holder? key = some v.signal ∧ v.key = key ∧ v.attempts = 0 + 1 :=
    waiter?_attempt (w := ⟨call, key, options, 0, fresh, cancelled⟩) new hv
  have hchase := hrun.chase hrest old fun v hv => (hnext v hv).2.1
  have hnobody (w : Waiter τ) (hw : l.waiter? call = some w) : w.signal ∈ l.released := by
    rw [new] at hw
    cases hw
  refine ⟨new, hchase.look hgone (fun v hv => ?_) hnobody (fun token => run.holder_not_released)
    (released_kept hstep)⟩
  obtain ⟨hheld, -, hattempts⟩ := hnext v hv
  exact ⟨hheld, by rw [hattempts, count_gone new]⟩

theorem replay_append (l : Locker τ) (history : List (Event τ)) (labels more : List (Label τ)) :
    l.replay history (labels ++ more) =
      (l.replay history labels).bind fun o => o.1.replay o.2 more := by
  induction labels generalizing l history with
  | nil => rfl
  | cons label labels ih =>
      simp only [List.cons_append, Locker.replay]
      split
      · split
        · rfl
        · exact ih _ _
      · rfl

theorem replay_history (h : l.replay history more = some (m, full)) : history <+: full := by
  induction more generalizing l history with
  | nil =>
      obtain ⟨-, rfl⟩ : l = m ∧ history = full := by simpa [Locker.replay] using h
      exact List.prefix_refl history
  | cons label more ih =>
      obtain ⟨o, -, hrest⟩ := replay_step h
      exact (List.prefix_append history o.2).trans (ih hrest)

/-- Whoever is found to hold a key was granted it. -/
theorem Run.holders_granted (run : Run l labels history) (call : Nat) (key : String)
    (h : l.replay history more = some (m, full)) :
    ∀ token ∈ holders (l.finds call key more), token ∈ granted full := by
  induction more generalizing l labels history with
  | nil => nofun
  | cons label more ih =>
      obtain ⟨o, hstep, hrun, hrest⟩ := run.replay_next h
      have hlater := ih hrun hrest
      have hheld (token : τ) (held : l.holder? key = some token) : token ∈ granted full := by
        obtain ⟨before, first, after, rfl, -⟩ := (run.holder?_iff key token).mp held
        have hmem : token ∈ granted (before ++ Event.granted first key token :: after) := by
          simp [granted]
        exact ((replay_history h).sublist.filterMap _).subset hmem
      unfold Locker.finds
      rw [hstep]
      by_cases hlooks : label.looks call = true
      · simp only [hlooks, if_true]
        cases hholder : l.holder? key with
        | none => exact hlater
        | some holder => exact List.forall_mem_cons.mpr ⟨hheld holder hholder, hlater⟩
      · simp only [hlooks, Bool.false_eq_true, if_false]
        exact hlater

end Replay

section Run

variable {l : Locker τ} {labels : List (Label τ)} {history : List (Event τ)}

/-- The counter of a call, whatever is done in between by others. It is raised to 1, 2, 3, ..., once
for each look that finds the key held, and stands at their number while the call waits. It has to be
raised past its size exactly if the call has no limit and as many looks as that find the key held.
Each of them is paid for by a grant to another. Where the counter starts over at zero instead, the
call goes on just the same. -/
theorem attempt_counter_overflows_iff {m : Locker τ} (run : Run l labels history) {call : Nat}
    {key : String} {options : Options} {cancelled : Bool} {fresh : τ} {more : List (Label τ)}
    {later : List (Event τ)} {found : List (Option τ)} {raised : List Nat}
    (goes : l.replay history (.lock call key options cancelled fresh :: more) =
      some (m, history ++ later))
    (old : ∀ label ∈ more, label.opens call = false)
    (narrow : options.maxAttempts < counterSize)
    (finds : l.finds call key (.lock call key options cancelled fresh :: more) = found)
    (raises : l.raises call key (.lock call key options cancelled fresh :: more) = raised) :
    raised = List.range' 1 (heldLooks found) ∧
    (∀ w, m.waiter? call = some w → w.attempts = heldLooks found) ∧
    ((∃ n ∈ raised, counterSize ≤ n) ↔
      options.maxAttempts = 0 ∧ counterSize ≤ heldLooks found) ∧
    heldLooks found ≤ (granted (history ++ later)).length ∧
    (∀ n ∈ raised, options.exhausted (n % counterSize) = options.exhausted n) := by
  obtain ⟨new, hchase⟩ := run.chase_lock goes old
  have hcourse := replay_lock goes old
  have hgranted := run.holders_granted call key goes
  rw [finds] at hchase hcourse hgranted
  rw [raises] at hchase
  have hraised := hchase.raised_eq
  have hattempts := hchase.attempts_eq
  rw [count_gone new, Nat.zero_add] at hraised
  simp only [count_gone new, Nat.zero_add] at hattempts
  have hmem (n : Nat) : n ∈ raised ↔ 1 ≤ n ∧ n ≤ heldLooks found := by
    rw [hraised, List.mem_range'_1]
    omega
  have hlimited (limited : 0 < options.maxAttempts) : heldLooks found < counterSize :=
    Nat.lt_of_le_of_lt (Nat.le_trans List.countP_le_length (hcourse.looks_le limited)) narrow
  refine ⟨hraised, hattempts, ?_, ?_, ?_⟩
  · simp only [hmem]
    constructor
    · rintro ⟨n, ⟨-, hle⟩, hfull⟩
      refine ⟨Nat.eq_zero_of_not_pos fun limited => ?_, Nat.le_trans hfull hle⟩
      have hfits := hlimited limited
      omega
    · rintro ⟨-, hfull⟩
      exact ⟨counterSize, ⟨by decide, hfull⟩, Nat.le_refl _⟩
  · rw [heldLooks_eq_length]
    exact (List.Nodup.subperm hchase.nodup hgranted).length_le
  · intro n hn
    rcases Nat.eq_zero_or_pos options.maxAttempts with unlimited | limited
    · simp [Options.exhausted, unlimited]
    · have hfits := hlimited limited
      have hle := ((hmem n).mp hn).2
      rw [Nat.mod_eq_of_lt (Nat.lt_of_le_of_lt hle hfits)]

/-- A call with a limit of three that is beaten to its key each time: its counter ends at the limit,
and is not full. -/
theorem attempt_counter_limited : ∃ (l m : Locker Nat) (history later : List (Event Nat))
    (found : List (Option Nat)), Run l [.lock 0 "a" {} false 10] history ∧
    l.replay history (.lock 1 "a" { maxAttempts := 3 } false 11 :: beatenSteps) =
      some (m, history ++ later) ∧
    heldLooks found = 3 ∧
    l.raises 1 "a" (.lock 1 "a" { maxAttempts := 3 } false 11 :: beatenSteps) =
      List.range' 1 (heldLooks found) ∧
    ¬ ∃ n ∈ List.range' 1 (heldLooks found), counterSize ≤ n := by
  let found : List (Option Nat) := [some 10, some 12, some 15]
  let l : Locker Nat := { records := [("a", 10)] }
  have run : Run l ([] ++ [.lock 0 "a" {} false 10]) [.granted 0 "a" 10] := Run.start.replay rfl
  have goes : l.replay [.granted 0 "a" 10]
      (.lock 1 "a" { maxAttempts := 3 } false 11 :: beatenSteps) =
      some (_, [.granted 0 "a" 10] ++ [.waits 1 10, .removed "a" 10, .granted 2 "a" 12,
        .waits 1 12, .waits 3 12, .removed "a" 12, .granted 3 "a" 15,
        .failed 1 .maxAttempts]) := rfl
  have finds : l.finds 1 "a" (.lock 1 "a" { maxAttempts := 3 } false 11 :: beatenSteps) =
      found := by
    decide
  obtain ⟨hraised, -, hfull, -, -⟩ :=
    attempt_counter_overflows_iff run goes (by decide) (by decide) finds rfl
  rw [hraised] at hfull
  exact ⟨l, _, _, _, found, run, goes, rfl, hraised, fun full => nomatch (hfull.mp full).1⟩

end Run

section Rounds

/-- The key in the hands of the first holder. -/
def firstHolder : Locker Nat := { records := [("a", 0)] }

/-- The holder gives the key back, a new call gets it, and the call that waited looks too late. -/
def beatenRound (k : Nat) : List (Label Nat) :=
  [.release "a" k, .lock (k + 2) "a" {} false (k + 1), .retry 1 (k + 2)]

/-- A call without a limit that is beaten to its key so many times. -/
def beatenRounds (n : Nat) : List (Label Nat) :=
  .lock 1 "a" {} false 1 :: (List.range n).flatMap beatenRound

/-- How the call waits then. -/
def beatenCall (n : Nat) : Waiter Nat := ⟨1, "a", {}, n + 1, n, false⟩

/-- Where the rounds lead. -/
def beaten (n : Nat) : Locker Nat :=
  { records := [("a", n)], released := (List.range n).reverse, waiting := [beatenCall n] }

theorem replay_beatenRound {history : List (Event Nat)} {k : Nat}
    (h : granted history = List.range (k + 1)) :
    (beaten k).replay history (beatenRound k) = some (beaten (k + 1),
      history ++ [.removed "a" k, .granted (k + 2) "a" (k + 1), .waits 1 (k + 1)]) := by
  -- The key is free for one step, and call 1 looks only when it has been taken again.
  let free : Locker Nat :=
    { released := (List.range (k + 1)).reverse, waiting := [beatenCall k] }
  let taken : Locker Nat :=
    { records := [("a", k + 1)], released := (List.range (k + 1)).reverse,
      waiting := [beatenCall k] }
  have hrelease : (beaten k).step (.release "a" k) = some (free, [.removed "a" k]) := by
    simp [Locker.step, Locker.release, Locker.remove, Locker.holder?, free, beaten, List.range_succ]
  have hlock : free.step (.lock (k + 2) "a" {} false (k + 1)) =
      some (taken, [.granted (k + 2) "a" (k + 1)]) := by
    simp [Locker.step, Locker.lock, Locker.waiter?, Locker.attempt, Locker.holder?, Locker.grant,
      free, taken, beatenCall]
  have hretry : taken.step (.retry 1 (k + 2)) = some (beaten (k + 1), [.waits 1 (k + 1)]) := by
    simp [Locker.step, Locker.retry, Locker.waiter?, Locker.signalled, Locker.attempt,
      Locker.holder?, Locker.forget, Options.exhausted, taken, beaten, beatenCall]
  have hnone : granted [Event.removed "a" k] = [] := rfl
  have hone : granted [Event.removed "a" k, .granted (k + 2) "a" (k + 1)] = [k + 1] := rfl
  simp [beatenRound, Locker.replay, Fresh, Label.drawn?, hrelease, hlock, hretry, granted_append, h,
    hnone, hone]

theorem replay_beatenRounds (n : Nat) : ∃ history,
    firstHolder.replay [.granted 0 "a" 0] (beatenRounds n) = some (beaten n, history) ∧
      granted history = List.range (n + 1) := by
  induction n with
  | zero => exact ⟨_, rfl, rfl⟩
  | succ n ih =>
      obtain ⟨history, hgoes, hgranted⟩ := ih
      have hrounds : beatenRounds (n + 1) = beatenRounds n ++ beatenRound n := by
        simp [beatenRounds, List.range_succ]
      rw [hrounds, replay_append, hgoes, Option.bind_some, replay_beatenRound hgranted]
      refine ⟨_, rfl, ?_⟩
      rw [granted_append, hgranted, List.range_succ (n := n + 1)]
      rfl

theorem run_firstHolder : Run firstHolder [.lock 0 "a" {} false 0] [.granted 0 "a" 0] := by
  have run : Run firstHolder ([] ++ [.lock 0 "a" {} false 0]) [.granted 0 "a" 0] :=
    Run.start.replay rfl
  exact run

theorem opens_beatenRounds (n : Nat) :
    ∀ label ∈ (List.range n).flatMap beatenRound, label.opens 1 = false := by
  intro label hlabel
  obtain ⟨k, -, hround⟩ := List.mem_flatMap.mp hlabel
  have hopens : ∀ next ∈ beatenRound k, next.opens 1 = false := by simp [beatenRound, Label.opens]
  exact hopens label hround

/-- Each round raises the counter once more. -/
theorem raises_beatenRounds (n : Nat) :
    firstHolder.raises 1 "a" (beatenRounds n) = List.range' 1 (n + 1) := by
  obtain ⟨history, goes, -⟩ := replay_beatenRounds n
  obtain ⟨new, hchase⟩ := run_firstHolder.chase_lock goes (opens_beatenRounds n)
  have hraised := hchase.raised_eq
  have hattempts := hchase.attempts_eq (beatenCall n) rfl
  rw [count_gone new, Nat.zero_add] at hraised hattempts
  rw [← hattempts] at hraised
  exact hraised

/-- Without a limit the counter overflows. The call is woken and beaten to its key in one round
after another, each time by a new call, until its counter has to be raised past what it can hold. -/
theorem unlimited_counter_overflows :
    Run firstHolder [.lock 0 "a" {} false 0] [.granted 0 "a" 0] ∧
    (∃ history, firstHolder.replay [.granted 0 "a" 0] (beatenRounds (counterSize - 1)) =
      some (beaten (counterSize - 1), history)) ∧
    counterSize ∈ firstHolder.raises 1 "a" (beatenRounds (counterSize - 1)) := by
  -- The rounds are never computed: all that is used of their number is that one more is the size.
  obtain ⟨history, goes, -⟩ := replay_beatenRounds (counterSize - 1)
  refine ⟨run_firstHolder, ⟨history, goes⟩, ?_⟩
  rw [raises_beatenRounds, Nat.sub_add_cancel (by decide), List.mem_range'_1]
  exact ⟨by decide, Nat.lt_add_of_pos_left Nat.one_pos⟩

end Rounds

end Coordination.Lock
