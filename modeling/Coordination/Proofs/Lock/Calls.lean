import Coordination.Proofs.Lock.Sections

/-!
One call among the steps of a lock service. A step belongs to one call or to nobody, and what it
tells of calls is about the call that it belongs to. The steps of the others neither touch a waiting
call nor ask about it, so they do the same in a service that has forgotten the call; and of its own
steps, a grant is the only one that a service without the call would miss.
-/

namespace Coordination.Lock

variable {τ : Type}

/-- The call that a step belongs to. Releases, timers and time belong to nobody. -/
def Label.call? : Label τ → Option Nat
  | .lock call _ _ _ _ | .retry call _ | .cancel call | .giveUp call | .drop call => some call
  | .release _ _ | .expire _ _ | .tick _ => none

def Event.call? : Event τ → Option Nat
  | .granted call _ _ | .failed call _ | .waits call _ => some call
  | .removed _ _ | .refused _ _ => none

def Label.opens (call : Nat) : Label τ → Bool
  | .lock new _ _ _ _ => new = call
  | _ => false

def Label.looks (call : Nat) : Label τ → Bool
  | .lock looking _ _ _ _ | .retry looking _ => looking = call
  | _ => false

theorem call?_of_looks {call : Nat} {label : Label τ} (h : label.looks call = true) :
    label.call? = some call := by
  cases label with
  | lock | retry => exact congrArg some (of_decide_eq_true h)
  | cancel | giveUp | drop | release | expire | tick => cases h

def toldTo (call : Nat) (events : List (Event τ)) : List (Event τ) :=
  events.filter fun e => e.call? = some call

theorem toldTo_append (call : Nat) (events more : List (Event τ)) :
    toldTo call (events ++ more) = toldTo call events ++ toldTo call more := List.filter_append ..

section Look

variable {l : Locker τ} {w : Waiter τ} {fresh : τ} {call : Nat}

/-- All that a look at a key tells is told to the call that looks. -/
theorem attempt_call : ∀ e ∈ (l.attempt w fresh).2, e.call? = some w.call := by
  unfold Locker.attempt
  split
  · simp [Event.call?]
  · split
    · simp [Event.call?]
    · simp [Event.call?]

theorem toldTo_attempt (hcall : w.call = call) :
    toldTo call (l.attempt w fresh).2 = (l.attempt w fresh).2 :=
  List.filter_eq_self.mpr fun e he => decide_eq_true (hcall ▸ attempt_call e he)

theorem waiter?_forget (l : Locker τ) (call : Nat) : (l.forget call).waiter? call = none := by
  rw [Locker.waiter?, List.find?_eq_none]
  intro w hw
  simpa using (List.mem_filter.mp hw).2

theorem waiter?_forget_of_ne {other : Nat} (hne : other ≠ call) :
    (l.forget other).waiter? call = l.waiter? call := by
  rw [Locker.waiter?, Locker.forget, find?_filter_of, Locker.waiter?]
  intro w _ hcall
  exact decide_eq_true fun hother => hne (hother.symm.trans (of_decide_eq_true hcall))

/-- A look at a key leaves the other waiting calls alone. -/
theorem waiter?_attempt_of_ne (hne : w.call ≠ call) :
    (l.attempt w fresh).1.waiter? call = l.waiter? call := by
  unfold Locker.attempt
  split
  · rfl
  · split
    · rfl
    · simp [Locker.waiter?, List.find?_append, hne]

theorem forget_forget (l : Locker τ) (call : Nat) :
    (l.forget call).forget call = l.forget call := by
  rw [forget_eq (waiter?_forget l call)]

theorem forget_comm (l : Locker τ) (call other : Nat) :
    (l.forget call).forget other = (l.forget other).forget call := by
  simp only [Locker.forget, List.filter_comm]

/-- Whoever looks at a key asks about no waiting call. -/
theorem forget_attempt_of_ne (hne : w.call ≠ call) :
    (l.forget call).attempt w fresh =
      ((l.attempt w fresh).1.forget call, (l.attempt w fresh).2) := by
  have hholder : (l.forget call).holder? w.key = l.holder? w.key := rfl
  unfold Locker.attempt
  rw [hholder]
  split
  · rfl
  · split
    · rfl
    · simp [Locker.forget, hne]

/-- A look that is not granted changes nothing but who waits. -/
theorem attempt_forget (vain : ∀ key token, .granted w.call key token ∉ (l.attempt w fresh).2) :
    (l.attempt w fresh).1.forget w.call = l.forget w.call := by
  unfold Locker.attempt at vain ⊢
  split
  · rename_i hfree
    simp only [hfree] at vain
    exact absurd (List.mem_singleton_self _) (vain w.key fresh)
  · split
    · rfl
    · simp [Locker.forget]

end Look

section Cancel

theorem waiter?_cancel (l : Locker τ) (call other : Nat) :
    (l.cancel other).waiter? call =
      (l.waiter? call).map fun w => if w.call = other then { w with cancelled := true } else w := by
  have hsame : ((fun w : Waiter τ => decide (w.call = call)) ∘
      fun w => if w.call = other then { w with cancelled := true } else w) =
      fun w => decide (w.call = call) := by
    funext w
    simp only [Function.comp]
    split <;> rfl
  rw [Locker.waiter?, Locker.cancel, List.find?_map, hsame, Locker.waiter?]

theorem waiter?_cancel_of_ne {l : Locker τ} {call other : Nat} (hne : other ≠ call) :
    (l.cancel other).waiter? call = l.waiter? call := by
  rw [waiter?_cancel]
  cases hw : l.waiter? call with
  | none => rfl
  | some w =>
      have hother : w.call ≠ other := fun heq => hne (heq.symm.trans (waiter?_some hw).2)
      rw [Option.map_some, if_neg hother]

theorem forget_cancel (l : Locker τ) (call other : Nat) :
    (l.cancel other).forget call = (l.forget call).cancel other := by
  have hsame : ((fun w : Waiter τ => decide (w.call ≠ call)) ∘
      fun w => if w.call = other then { w with cancelled := true } else w) =
      fun w => decide (w.call ≠ call) := by
    funext w
    simp only [Function.comp]
    split <;> rfl
  simp only [Locker.forget, Locker.cancel, List.filter_map, hsame]

/-- There is nobody to ask. -/
theorem cancel_eq {l : Locker τ} {call : Nat} (h : l.waiter? call = none) : l.cancel call = l := by
  have hkeep : (l.waiting.map fun w =>
      if w.call = call then { w with cancelled := true } else w) = l.waiting := by
    rw [List.map_congr_left fun w hw => if_neg (key_ne_of_find? h hw), List.map_id']
  rw [Locker.cancel, hkeep]

end Cancel

section Expire

variable [DecidableEq τ] {l : Locker τ} {key : String} {owner : τ}

theorem remove_forget (l : Locker τ) (call : Nat) (key : String) (owner : τ) :
    (l.forget call).remove key owner = (l.remove key owner).map fun m => m.forget call := by
  have hholder : (l.forget call).holder? key = l.holder? key := rfl
  unfold Locker.remove
  rw [hholder]
  split <;> rfl

theorem release_forget (l : Locker τ) (call : Nat) (key : String) (owner : τ) :
    (l.forget call).release key owner =
      ((l.release key owner).1.forget call, (l.release key owner).2) := by
  unfold Locker.release
  rw [remove_forget]
  cases l.remove key owner <;> rfl

theorem expire_forget (l : Locker τ) (call : Nat) (key : String) (owner : τ) :
    (l.forget call).expire key owner =
      (l.expire key owner).map fun o => (o.1.forget call, o.2) := by
  generalize hm : l.forget call = m
  have hsignalled : m.signalled owner = l.signalled owner := by rw [← hm]; rfl
  have htimers : m.timers = l.timers := by rw [← hm]; rfl
  have hnow : m.now = l.now := by rw [← hm]; rfl
  have hrest (timers : List (Timer τ)) :
      (⟨m.records, m.released, m.waiting, timers, l.now⟩ : Locker τ) =
        Locker.forget { l with timers } call := by rw [← hm]; rfl
  unfold Locker.expire
  simp only [hsignalled, htimers, hnow, hrest, remove_forget]
  split
  · rfl
  · rename_i t _
    split
    · rfl
    · split
      · cases Locker.remove { l with timers := l.timers.erase t } key owner <;> rfl
      · rfl

end Expire

section Step

variable [DecidableEq τ] {l : Locker τ} {label : Label τ} {o : Locker τ × List (Event τ)}
  {call : Nat}

/-- All that a step tells is about the call that it belongs to, or about nobody if it belongs to
nobody. -/
theorem step_call (h : l.step label = some o) {e : Event τ} (he : e ∈ o.2) :
    e.call? = label.call? := by
  cases label with
  | lock new key options cancelled fresh =>
      obtain ⟨-, rfl⟩ := lock_some h
      exact attempt_call e he
  | retry again fresh =>
      obtain ⟨w, hw, -, rfl⟩ := retry_some h
      obtain ⟨-, rfl⟩ := waiter?_some hw
      exact attempt_call e he
  | giveUp again =>
      obtain rfl := giveUp_some h
      obtain rfl := List.mem_singleton.mp he
      rfl
  | cancel asked | drop gone =>
      obtain rfl := Option.some.inj h
      cases he
  | release key token =>
      obtain rfl := Option.some.inj h
      rcases release_cases l key token with ⟨m, -, heq⟩ | heq
      · rw [heq] at he
        obtain rfl := List.mem_singleton.mp he
        rfl
      · rw [heq] at he
        obtain rfl := List.mem_singleton.mp he
        rfl
  | expire key owner =>
      obtain ⟨t, -, -, -, rfl | ⟨-, m, -, rfl⟩⟩ := expire_some h
      · cases he
      · obtain rfl := List.mem_singleton.mp he
        rfl
  | tick now =>
      obtain rfl := tick_some h
      cases he

/-- A step of others tells a call nothing. -/
theorem toldTo_others (h : l.step label = some o) (hne : label.call? ≠ some call) :
    toldTo call o.2 = [] := by
  rw [toldTo, List.filter_eq_nil_iff]
  intro e he hcall
  exact hne ((step_call h he).symm.trans (of_decide_eq_true hcall))

/-- A step of others leaves a waiting call as it is. -/
theorem waiter?_others (h : l.step label = some o) (hne : label.call? ≠ some call) :
    o.1.waiter? call = l.waiter? call := by
  cases label with
  | lock new key options cancelled fresh =>
      obtain ⟨-, rfl⟩ := lock_some h
      exact waiter?_attempt_of_ne fun heq => hne (congrArg some heq)
  | retry again fresh =>
      have hagain : again ≠ call := fun heq => hne (congrArg some heq)
      obtain ⟨w, hw, -, rfl⟩ := retry_some h
      obtain ⟨-, rfl⟩ := waiter?_some hw
      rw [waiter?_attempt_of_ne hagain, waiter?_forget_of_ne hagain]
  | cancel asked =>
      obtain rfl := Option.some.inj h
      exact waiter?_cancel_of_ne fun heq => hne (congrArg some heq)
  | giveUp again =>
      obtain rfl := giveUp_some h
      exact waiter?_forget_of_ne fun heq => hne (congrArg some heq)
  | drop gone =>
      obtain rfl := Option.some.inj h
      exact waiter?_forget_of_ne fun heq => hne (congrArg some heq)
  | release key token =>
      obtain rfl := Option.some.inj h
      rw [Locker.waiter?, release_waiting, Locker.waiter?]
  | expire key owner => rw [Locker.waiter?, expire_waiting h, Locker.waiter?]
  | tick now =>
      obtain rfl := tick_some h
      rfl

/-- A step of others can be taken in a service that has forgotten the call just if it can be taken
in one that has not, and comes to the same. -/
theorem step_forget (l : Locker τ) (hne : label.call? ≠ some call) :
    (l.forget call).step label = (l.step label).map fun o => (o.1.forget call, o.2) := by
  cases label with
  | lock new key options cancelled fresh =>
      have hnew : new ≠ call := fun heq => hne (congrArg some heq)
      simp only [Locker.step, Locker.lock, waiter?_forget_of_ne hnew.symm]
      split
      · rfl
      · rw [forget_attempt_of_ne hnew]
        rfl
  | retry again fresh =>
      have hagain : again ≠ call := fun heq => hne (congrArg some heq)
      simp only [Locker.step, Locker.retry, waiter?_forget_of_ne hagain.symm]
      split
      · rename_i w hw
        obtain ⟨-, rfl⟩ := waiter?_some hw
        have hsignalled : (l.forget call).signalled w.signal = l.signalled w.signal := rfl
        rw [hsignalled]
        split
        · rw [forget_comm, forget_attempt_of_ne hagain]
          rfl
        · rfl
      · rfl
  | cancel asked =>
      simp only [Locker.step, ← forget_cancel]
      rfl
  | giveUp again =>
      have hagain : again ≠ call := fun heq => hne (congrArg some heq)
      simp only [Locker.step, Locker.giveUp, waiter?_forget_of_ne hagain.symm]
      split
      · split
        · rw [forget_comm]
          rfl
        · rfl
      · rfl
  | drop gone =>
      simp only [Locker.step, forget_comm l call gone]
      rfl
  | release key token =>
      simp only [Locker.step, release_forget]
      rfl
  | expire key owner => exact expire_forget l call key owner
  | tick now =>
      have hnow : (l.forget call).now = l.now := rfl
      simp only [Locker.step, hnow]
      split <;> rfl

/-- Without a grant, a step of a call changes nothing but that the call waits or not. -/
theorem step_vain (h : l.step label = some o) (hown : label.call? = some call)
    (vain : ∀ key token, .granted call key token ∉ o.2) : o.1.forget call = l.forget call := by
  cases label with
  | lock new key options cancelled fresh =>
      obtain rfl := Option.some.inj hown
      obtain ⟨-, rfl⟩ := lock_some h
      exact attempt_forget vain
  | retry again fresh =>
      obtain rfl := Option.some.inj hown
      obtain ⟨w, hw, -, rfl⟩ := retry_some h
      obtain ⟨-, rfl⟩ := waiter?_some hw
      rw [attempt_forget vain, forget_forget]
  | cancel asked =>
      obtain rfl := Option.some.inj hown
      obtain rfl := Option.some.inj h
      rw [forget_cancel, cancel_eq (waiter?_forget l asked)]
  | giveUp again =>
      obtain rfl := Option.some.inj hown
      obtain rfl := giveUp_some h
      exact forget_forget l again
  | drop gone =>
      obtain rfl := Option.some.inj hown
      obtain rfl := Option.some.inj h
      exact forget_forget l gone
  | release | expire | tick => cases hown

/-- A call that does not wait has no look left and no step that tells anything. -/
theorem step_gone (h : l.step label = some o) (hown : label.call? = some call)
    (old : label.opens call = false) (hgone : l.waiter? call = none) :
    label.looks call = false ∧ o.2 = [] ∧ o.1.waiter? call = none := by
  cases label with
  | lock new key options cancelled fresh =>
      obtain rfl := Option.some.inj hown
      simp [Label.opens] at old
  | retry again fresh =>
      obtain rfl := Option.some.inj hown
      obtain ⟨w, hw, -⟩ := retry_some h
      rw [hgone] at hw
      cases hw
  | cancel asked =>
      obtain rfl := Option.some.inj hown
      obtain rfl := Option.some.inj h
      exact ⟨rfl, rfl, by rw [cancel_eq hgone, hgone]⟩
  | giveUp again =>
      obtain rfl := Option.some.inj hown
      simp [Locker.step, Locker.giveUp, hgone] at h
  | drop gone =>
      obtain rfl := Option.some.inj hown
      obtain rfl := Option.some.inj h
      exact ⟨rfl, rfl, waiter?_forget l gone⟩
  | release | expire | tick => cases hown

end Step

end Coordination.Lock
