import Coordination.Proofs.Lock.Wakeup

/-!
What a token can do. The token of a holder gives back its own record and nothing else, and every
other token is refused without a trace. A token gives back one record in a whole run, whether by a
release or by its timer: once its signal has fired it holds no key, and never will again, because
no token is granted twice.
-/

namespace Coordination.Lock

variable {τ : Type}

/-- The tokens whose records have been removed, by a release or by a timer, in order. -/
def givenBack (history : List (Event τ)) : List τ :=
  history.filterMap fun
    | .removed _ token => some token
    | _ => none

theorem givenBack_append (h k : List (Event τ)) : givenBack (h ++ k) = givenBack h ++ givenBack k :=
  List.filterMap_append

theorem mem_givenBack {history : List (Event τ)} {token : τ} :
    token ∈ givenBack history ↔ ∃ key, .removed key token ∈ history := by
  simp only [givenBack, List.mem_filterMap]
  constructor
  · rintro ⟨e, he, htoken⟩
    cases e with
    | removed key owner =>
        obtain rfl := Option.some.inj htoken
        exact ⟨key, he⟩
    | granted | failed | waits | refused => cases htoken
  · rintro ⟨key, he⟩
    exact ⟨.removed key token, he, rfl⟩

theorem givenBack_eq_nil {events : List (Event τ)}
    (h : ∀ key token, .removed key token ∉ events) : givenBack events = [] := by
  rw [List.eq_nil_iff_forall_not_mem]
  intro token htoken
  obtain ⟨key, hremoved⟩ := mem_givenBack.mp htoken
  exact h key token hremoved

variable [DecidableEq τ]

/-- The fired signals are told in the order in which they fire. -/
theorem step_givenBack {l : Locker τ} {label : Label τ} {o : Locker τ × List (Event τ)}
    (h : l.step label = some o) : o.1.released = (givenBack o.2).reverse ++ l.released := by
  have hquiet {events : List (Event τ)} (quiet : ∀ e ∈ events, e.Quiet) : givenBack events = [] :=
    givenBack_eq_nil fun _ _ hmem => quiet _ hmem
  cases step_acts h with
  | look w fresh drawn known =>
      obtain ⟨hreleased, hnone⟩ := attempt_released (l.forget w.call) w fresh
      rw [hreleased, givenBack_eq_nil hnone]
      rfl
  | leave waiting fewer events quiet =>
      rw [hquiet quiet]
      rfl
  | remove key token timers fewer held frees => rfl
  | pass timers fewer now events quiet =>
      rw [hquiet quiet]
      rfl

theorem Run.released_eq {l : Locker τ} {labels : List (Label τ)} {history : List (Event τ)}
    (run : Run l labels history) : l.released = (givenBack history).reverse := by
  induction run with
  | start => rfl
  | next run fresh hstep ih =>
      rw [step_givenBack hstep, ih, givenBack_append, List.reverse_append]

/-- No token gives a key back twice. -/
theorem Run.givenBack_nodup {l : Locker τ} {labels : List (Label τ)} {history : List (Event τ)}
    (run : Run l labels history) : (givenBack history).Nodup := by
  have hnodup : (l.released ++ l.owners).Nodup := run.tokens_perm.nodup_iff.mpr run.granted_nodup
  have hreleased : l.released.Nodup := (List.nodup_append.mp hnodup).1
  rw [run.released_eq] at hreleased
  exact List.nodup_reverse.mp hreleased

theorem release_held {l : Locker τ} {key : String} {token : τ} (h : l.holder? key = some token) :
    l.step (.release key token) =
      some ({ l with
          records := l.records.filter fun r => r.1 ≠ key
          released := token :: l.released }, [.removed key token]) := by
  simp only [Locker.step, Locker.release, Locker.remove, h, if_true]

theorem release_refused {l : Locker τ} {key : String} {token : τ}
    (h : l.holder? key ≠ some token) :
    l.step (.release key token) = some (l, [.refused key token]) := by
  simp only [Locker.step, Locker.release, Locker.remove, h, if_false]

/-- A timer whose token has been released takes nothing but a timer away. -/
theorem expire_keeps {l m : Locker τ} {key : String} {token : τ} {events : List (Event τ)}
    (hreleased : l.signalled token = true) (h : l.step (.expire key token) = some (m, events)) :
    events = [] ∧ m.records = l.records ∧ m.released = l.released := by
  simp only [Locker.step, Locker.expire, hreleased, if_true] at h
  split at h
  · cases h
  · obtain ⟨rfl, rfl⟩ := Prod.mk.inj (Option.some.inj h)
    exact ⟨rfl, rfl, rfl⟩

/-- A token has authority over the record that it owns, and once. A release succeeds for the token
of the key's holder, and then this record and no other is gone and this signal and no other has
fired; for any other token it is refused and nothing changes. In a whole run no token gives back a
record twice, by releases and its timer taken together: after it has, every release with it is
refused, whatever the key, and a timer of it removes no record and fires no signal. -/
theorem token_authority {l : Locker τ} {labels : List (Label τ)} {history : List (Event τ)}
    (run : Run l labels history) :
    (∀ key token, l.holder? key = some token → ∃ m,
      l.step (.release key token) = some (m, [.removed key token]) ∧
      m.holder? key = none ∧ l.records.Perm ((key, token) :: m.records) ∧
      (∀ other, m.signalled other = true ↔ other = token ∨ l.signalled other = true) ∧
      m.waiting = l.waiting ∧ m.timers = l.timers) ∧
    (∀ key token, l.holder? key ≠ some token →
      l.step (.release key token) = some (l, [.refused key token])) ∧
    (givenBack history).Nodup ∧
    (∀ token ∈ givenBack history,
      (∀ key, l.step (.release key token) = some (l, [.refused key token])) ∧
      ∀ key m events, l.step (.expire key token) = some (m, events) →
        events = [] ∧ m.records = l.records ∧ m.released = l.released) := by
  have hkeys := run.recorded.keys_nodup
  refine ⟨?_, ?_, run.givenBack_nodup, ?_⟩
  · intro key token hheld
    refine ⟨_, release_held hheld, ?_, ?_, ?_, rfl, rfl⟩
    · rw [Locker.holder?, List.lookup_eq_none_iff]
      intro r hr
      have hne : r.1 ≠ key := by simpa using (List.mem_filter.mp hr).2
      simpa using hne.symm
    · exact records_perm hkeys ((holder?_eq_some hkeys).mp hheld)
    · intro other
      rw [signalled_iff, signalled_iff, List.mem_cons]
  · intro key token hother
    exact release_refused hother
  · intro token hback
    have hreleased : token ∈ l.released := by
      rw [run.released_eq, List.mem_reverse]
      exact hback
    constructor
    · intro key
      apply release_refused
      intro hheld
      exact run.owner_not_released ((holder?_eq_some hkeys).mp hheld) hreleased
    · intro key m events hexpire
      exact expire_keeps (signalled_iff.mpr hreleased) hexpire

/-- A lock that was to expire is released before its time, and its key is granted again; then its
timer is due, late, while the key has a new holder. -/
def lateSteps : List (Label Nat) :=
  [.lock 0 "a" { expiration := some ⟨5, by decide⟩ } false 10, .lock 1 "b" {} false 11,
    .lock 2 "a" {} false 12, .release "a" 10, .retry 2 13, .tick 7]

theorem token_authority_late : ∃ (l m : Locker Nat) (history : List (Event Nat)),
    Run l lateSteps history ∧
    l.records = [("a", 13), ("b", 11)] ∧ l.timers = [⟨"a", 10, 5⟩] ∧
    givenBack history = [10] ∧
    l.step (.release "a" 10) = some (l, [.refused "a" 10]) ∧
    l.step (.expire "a" 10) = some (m, []) ∧ m.records = l.records := by
  have run : Run _ ([] ++ lateSteps) _ := Run.start.replay rfl
  obtain ⟨-, -, -, hback⟩ := token_authority run
  obtain ⟨hrefused, hexpire⟩ := hback 10 (by decide)
  exact ⟨_, _, _, run, by decide, by decide, by decide, hrefused "a", rfl,
    (hexpire "a" _ _ rfl).2.1⟩

end Coordination.Lock
