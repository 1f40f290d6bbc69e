import Coordination.Lock.Run
import Coordination.Proofs.Keyed

/-!
What one step of a lock service can do. A call looks at its key, the queue of waiting calls changes
without a look, a record is removed and its signal fires, or time passes and a timer goes. Laws
about records, signals, waiting calls and timers are read off this list, not off the steps.
-/

namespace Coordination.Lock

variable {τ : Type}

/-- A step that gives a key back: its holder's release, or a timer of its holder that is due. -/
def Frees (l : Locker τ) (label : Label τ) (key : String) (token : τ) : Prop :=
  label = .release key token ∨
    label = .expire key token ∧
      ∃ timer ∈ l.timers, timer.key = key ∧ timer.owner = token ∧ timer.due ≤ l.now

/-- Neither a grant nor a removal. -/
def Event.Quiet : Event τ → Prop
  | .granted _ _ _ | .removed _ _ => False
  | _ => True

/-- What a waiting call keeps as long as it waits for one signal. -/
def Waiter.place (w : Waiter τ) : Nat × String × τ := (w.call, w.key, w.signal)

/-- What one step of a lock service does, and what it tells. -/
inductive Acts [DecidableEq τ] (l : Locker τ) (label : Label τ) :
    Locker τ × List (Event τ) → Prop where
  /-- A call looks at its key: a new one, or one whose signal has fired. -/
  | look (w : Waiter τ) (fresh : τ) (drawn : label.drawn? = some fresh)
    (known : l.waiter? w.call = none ∧ w.attempts = 0 ∨
      l.waiter? w.call = some w ∧ l.signalled w.signal = true) :
    Acts l label ((l.forget w.call).attempt w fresh)
  /-- A waiting call is asked to give up, or goes away. -/
  | leave (waiting : List (Waiter τ))
    (fewer : (waiting.map Waiter.place).Sublist (l.waiting.map Waiter.place))
    (events : List (Event τ)) (quiet : ∀ e ∈ events, e.Quiet) :
    Acts l label ({ l with waiting }, events)
  /-- A record is removed and its signal fires. -/
  | remove (key : String) (token : τ) (timers : List (Timer τ)) (fewer : timers.Sublist l.timers)
    (held : l.holder? key = some token) (frees : Frees l label key token) :
    Acts l label
      ({ l with
          records := l.records.filter fun r => r.1 ≠ key
          released := token :: l.released
          timers },
        [.removed key token])
  /-- Nothing happens but that time passes or a timer goes. -/
  | pass (timers : List (Timer τ)) (fewer : timers.Sublist l.timers) (now : Nat)
    (events : List (Event τ)) (quiet : ∀ e ∈ events, e.Quiet) :
    Acts l label ({ l with timers, now }, events)

theorem waiter?_some {l : Locker τ} {call : Nat} {w : Waiter τ} (h : l.waiter? call = some w) :
    w ∈ l.waiting ∧ w.call = call := mem_of_find?_key h

theorem forget_eq {l : Locker τ} {call : Nat} (h : l.waiter? call = none) : l.forget call = l := by
  have hkeep : (l.waiting.filter fun w => w.call ≠ call) = l.waiting := by
    apply List.filter_eq_self.mpr
    intro w hw
    exact decide_eq_true (key_ne_of_find? h hw)
  rw [Locker.forget, hkeep]

theorem forget_fewer (l : Locker τ) (call : Nat) :
    ((l.forget call).waiting.map Waiter.place).Sublist (l.waiting.map Waiter.place) :=
  List.filter_sublist.map Waiter.place

theorem lock_some {l : Locker τ} {call : Nat} {key : String} {options : Options}
    {cancelled : Bool} {fresh : τ} {o : Locker τ × List (Event τ)}
    (h : l.lock call key options cancelled fresh = some o) :
    l.waiter? call = none ∧ o = l.attempt ⟨call, key, options, 0, fresh, cancelled⟩ fresh := by
  unfold Locker.lock at h
  split at h
  · cases h
  · rename_i hnew
    exact ⟨by simpa using hnew, (Option.some.inj h).symm⟩

theorem giveUp_some {l : Locker τ} {call : Nat} {o : Locker τ × List (Event τ)}
    (h : l.giveUp call = some o) : o = (l.forget call, [.failed call .cancelled]) := by
  unfold Locker.giveUp at h
  split at h
  · split at h
    · exact (Option.some.inj h).symm
    · cases h
  · cases h

variable [DecidableEq τ]

theorem remove_some {l m : Locker τ} {key : String} {owner : τ} (h : l.remove key owner = some m) :
    l.holder? key = some owner ∧ m =
      { l with
        records := l.records.filter fun r => r.1 ≠ key
        released := owner :: l.released } := by
  unfold Locker.remove at h
  split at h
  · rename_i hheld
    exact ⟨hheld, (Option.some.inj h).symm⟩
  · cases h

theorem retry_some {l : Locker τ} {call : Nat} {fresh : τ} {o : Locker τ × List (Event τ)}
    (h : l.retry call fresh = some o) :
    ∃ w, l.waiter? call = some w ∧ l.signalled w.signal = true ∧
      o = (l.forget call).attempt w fresh := by
  unfold Locker.retry at h
  split at h
  · rename_i w hw
    split at h
    · rename_i hwoken
      exact ⟨w, hw, hwoken, (Option.some.inj h).symm⟩
    · cases h
  · cases h

theorem release_cases (l : Locker τ) (key : String) (token : τ) :
    (∃ m, l.remove key token = some m ∧ l.release key token = (m, [.removed key token])) ∨
      l.release key token = (l, [.refused key token]) := by
  unfold Locker.release
  split
  · rename_i m hremove
    exact Or.inl ⟨m, hremove, rfl⟩
  · exact Or.inr rfl

/-- A timer goes, and its record with it if the timer is due and its token holds the key. -/
theorem expire_some {l : Locker τ} {key : String} {owner : τ} {o : Locker τ × List (Event τ)}
    (h : l.expire key owner = some o) :
    ∃ t ∈ l.timers, t.key = key ∧ t.owner = owner ∧
      (o = ({ l with timers := l.timers.erase t }, []) ∨
        t.due ≤ l.now ∧ ∃ m,
          Locker.remove { l with timers := l.timers.erase t } key owner = some m ∧
          o = (m, [.removed key owner])) := by
  unfold Locker.expire at h
  split at h
  · cases h
  · rename_i t hfind
    obtain ⟨hkey, howner⟩ : t.key = key ∧ t.owner = owner := by
      simpa using List.find?_some hfind
    refine ⟨t, List.mem_of_find?_eq_some hfind, hkey, howner, ?_⟩
    dsimp only at h
    split at h
    · exact Or.inl (Option.some.inj h).symm
    · split at h
      · rename_i hdue
        split at h
        · rename_i m hremove
          exact Or.inr ⟨hdue, m, hremove, (Option.some.inj h).symm⟩
        · exact Or.inl (Option.some.inj h).symm
      · cases h

theorem tick_some {l : Locker τ} {now : Nat} {o : Locker τ × List (Event τ)}
    (h : l.step (.tick now) = some o) : o = ({ l with now }, []) := by
  simp only [Locker.step] at h
  split at h
  · exact (Option.some.inj h).symm
  · cases h

theorem lock_acts {l : Locker τ} {call : Nat} {key : String} {options : Options}
    {cancelled : Bool} {fresh : τ} {o : Locker τ × List (Event τ)}
    (h : l.lock call key options cancelled fresh = some o) :
    Acts l (.lock call key options cancelled fresh) o := by
  obtain ⟨hnone, rfl⟩ := lock_some h
  have hlook : Acts l (.lock call key options cancelled fresh)
      ((l.forget call).attempt ⟨call, key, options, 0, fresh, cancelled⟩ fresh) :=
    Acts.look ⟨call, key, options, 0, fresh, cancelled⟩ fresh rfl (Or.inl ⟨hnone, rfl⟩)
  rwa [forget_eq hnone] at hlook

theorem retry_acts {l : Locker τ} {call : Nat} {fresh : τ} {o : Locker τ × List (Event τ)}
    (h : l.retry call fresh = some o) : Acts l (.retry call fresh) o := by
  obtain ⟨w, hw, hwoken, rfl⟩ := retry_some h
  obtain ⟨-, rfl⟩ := waiter?_some hw
  exact Acts.look w fresh rfl (Or.inr ⟨hw, hwoken⟩)

theorem expire_acts {l : Locker τ} {key : String} {owner : τ} {o : Locker τ × List (Event τ)}
    (h : l.expire key owner = some o) : Acts l (.expire key owner) o := by
  obtain ⟨t, ht, hkey, howner, rfl | ⟨hdue, m, hremove, rfl⟩⟩ := expire_some h
  · exact Acts.pass _ List.erase_sublist l.now [] (by simp)
  · obtain ⟨hheld, rfl⟩ := remove_some hremove
    exact Acts.remove key owner _ List.erase_sublist hheld
      (Or.inr ⟨rfl, t, ht, hkey, howner, hdue⟩)

theorem step_acts {l : Locker τ} {label : Label τ} {o : Locker τ × List (Event τ)}
    (h : l.step label = some o) : Acts l label o := by
  cases label with
  | lock call key options cancelled fresh => exact lock_acts h
  | retry call fresh => exact retry_acts h
  | cancel call =>
      obtain rfl := Option.some.inj h
      have hsame : (l.cancel call).waiting.map Waiter.place = l.waiting.map Waiter.place := by
        simp only [Locker.cancel, List.map_map]
        apply List.map_congr_left
        intro w _
        simp only [Function.comp]
        split <;> rfl
      exact Acts.leave _ (hsame ▸ List.Sublist.refl _) [] (by simp)
  | giveUp call =>
      obtain rfl := giveUp_some h
      exact Acts.leave _ (forget_fewer l call) _ (by simp [Event.Quiet])
  | drop call =>
      obtain rfl := Option.some.inj h
      exact Acts.leave _ (forget_fewer l call) [] (by simp)
  | release key token =>
      obtain rfl := Option.some.inj h
      rcases release_cases l key token with ⟨m, hremove, heq⟩ | heq
      · obtain ⟨hheld, rfl⟩ := remove_some hremove
        rw [heq]
        exact Acts.remove key token l.timers (List.Sublist.refl _) hheld (Or.inl rfl)
      · rw [heq]
        exact Acts.pass l.timers (List.Sublist.refl _) l.now _ (by simp [Event.Quiet])
  | expire key owner => exact expire_acts h
  | tick now =>
      obtain rfl := tick_some h
      exact Acts.pass l.timers (List.Sublist.refl _) now [] (by simp)

end Coordination.Lock
