import Coordination.Proofs.Lock.Wakeup

/-!
What one step of a lock service with sections can do. The service makes a step, and a section whose
call was granted by it begins to work, one whose call failed has ended; or a section ends its work,
or breaks off. Each of these is one step of the service, so everything that holds of its runs holds
of runs with sections.
-/

namespace Coordination.Lock

variable {τ : Type}

section Service

variable {l : Locker τ} {label : Label τ} {o : Locker τ × List (Event τ)} {call : Nat}

/-- The call was granted or has failed. -/
def Answered (call : Nat) (events : List (Event τ)) : Prop :=
  (∃ key token, .granted call key token ∈ events) ∨ ∃ error, .failed call error ∈ events

theorem mem_forget_calls {other : Nat} (hne : other ≠ call)
    (h : other ∈ l.waiting.map Waiter.call) :
    other ∈ (l.forget call).waiting.map Waiter.call := by
  obtain ⟨w, hw, rfl⟩ := List.mem_map.mp h
  exact List.mem_map_of_mem (List.mem_filter.mpr ⟨hw, decide_eq_true hne⟩)

theorem attempt_stays {w : Waiter τ} {fresh : τ}
    (h : call = w.call ∨ call ∈ l.waiting.map Waiter.call) :
    call ∈ (l.attempt w fresh).1.waiting.map Waiter.call ∨ Answered call (l.attempt w fresh).2 := by
  unfold Locker.attempt
  split
  · rcases h with rfl | h
    · exact Or.inr (Or.inl ⟨_, _, List.mem_singleton_self _⟩)
    · exact Or.inl h
  · split
    · rcases h with rfl | h
      · exact Or.inr (Or.inr ⟨_, List.mem_singleton_self _⟩)
      · exact Or.inl h
    · rw [List.map_append, List.mem_append]
      rcases h with rfl | h
      · exact Or.inl (Or.inr (List.mem_singleton_self _))
      · exact Or.inl (Or.inl h)

variable [DecidableEq τ]

/-- A step of the service tells one thing at most. -/
theorem step_tells (h : l.step label = some o) : o.2 = [] ∨ ∃ e, o.2 = [e] := by
  have hattempt (l : Locker τ) (w : Waiter τ) (fresh : τ) : ∃ e, (l.attempt w fresh).2 = [e] := by
    unfold Locker.attempt
    split
    · exact ⟨_, rfl⟩
    · split
      · exact ⟨_, rfl⟩
      · exact ⟨_, rfl⟩
  cases label with
  | lock call key options cancelled fresh =>
      obtain ⟨-, rfl⟩ := lock_some h
      exact Or.inr (hattempt _ _ _)
  | retry call fresh =>
      obtain ⟨w, -, -, rfl⟩ := retry_some h
      exact Or.inr (hattempt _ _ _)
  | giveUp call =>
      obtain rfl := giveUp_some h
      exact Or.inr ⟨_, rfl⟩
  | cancel | drop =>
      obtain rfl := Option.some.inj h
      exact Or.inl rfl
  | release key token =>
      obtain rfl := Option.some.inj h
      rcases release_cases l key token with ⟨m, -, heq⟩ | heq
      · exact Or.inr ⟨_, congrArg Prod.snd heq⟩
      · exact Or.inr ⟨_, congrArg Prod.snd heq⟩
  | expire key owner =>
      obtain ⟨t, -, -, -, rfl | ⟨-, m, -, rfl⟩⟩ := expire_some h
      · exact Or.inl rfl
      · exact Or.inr ⟨_, rfl⟩
  | tick now =>
      obtain rfl := tick_some h
      exact Or.inl rfl

theorem release_waiting (l : Locker τ) (key : String) (token : τ) :
    (l.release key token).1.waiting = l.waiting := by
  rcases release_cases l key token with ⟨m, hremove, heq⟩ | heq
  · rw [heq, (remove_some hremove).2]
  · rw [heq]

theorem expire_waiting {key : String} {owner : τ} (h : l.expire key owner = some o) :
    o.1.waiting = l.waiting := by
  obtain ⟨t, -, -, -, rfl | ⟨-, m, hremove, rfl⟩⟩ := expire_some h
  · rfl
  · rw [(remove_some hremove).2]

/-- A call that waits, or that is new, waits on until it is answered or goes away. -/
theorem step_stays (h : l.step label = some o)
    (hcall : call ∈ l.waiting.map Waiter.call ∨
      ∃ key options cancelled fresh, label = .lock call key options cancelled fresh)
    (hdrop : label ≠ .drop call) :
    call ∈ o.1.waiting.map Waiter.call ∨ Answered call o.2 := by
  cases label with
  | lock new key options cancelled fresh =>
      obtain ⟨-, rfl⟩ := lock_some h
      refine attempt_stays (hcall.symm.imp (fun hnew => ?_) id)
      obtain ⟨_, _, _, _, heq⟩ := hnew
      exact (Label.lock.inj heq).1.symm
  | retry again fresh =>
      have hwaits : call ∈ l.waiting.map Waiter.call := hcall.resolve_right (by simp)
      obtain ⟨w, hw, -, rfl⟩ := retry_some h
      obtain ⟨-, rfl⟩ := waiter?_some hw
      apply attempt_stays
      rcases eq_or_ne call w.call with heq | hne
      · exact Or.inl heq
      · exact Or.inr (mem_forget_calls hne hwaits)
  | cancel asked =>
      have hwaits : call ∈ l.waiting.map Waiter.call := hcall.resolve_right (by simp)
      obtain rfl := Option.some.inj h
      refine Or.inl ?_
      obtain ⟨w, hw, rfl⟩ := List.mem_map.mp hwaits
      rw [Locker.cancel, List.map_map]
      refine List.mem_map.mpr ⟨w, hw, ?_⟩
      simp only [Function.comp]
      split <;> rfl
  | giveUp again =>
      have hwaits : call ∈ l.waiting.map Waiter.call := hcall.resolve_right (by simp)
      obtain rfl := giveUp_some h
      rcases eq_or_ne call again with rfl | hne
      · exact Or.inr (Or.inr ⟨_, List.mem_singleton_self _⟩)
      · exact Or.inl (mem_forget_calls hne hwaits)
  | drop gone =>
      have hwaits : call ∈ l.waiting.map Waiter.call := hcall.resolve_right (by simp)
      obtain rfl := Option.some.inj h
      have hne : call ≠ gone := by
        rintro rfl
        exact hdrop rfl
      exact Or.inl (mem_forget_calls hne hwaits)
  | release key token =>
      have hwaits : call ∈ l.waiting.map Waiter.call := hcall.resolve_right (by simp)
      obtain rfl := Option.some.inj h
      rw [release_waiting]
      exact Or.inl hwaits
  | expire key owner =>
      have hwaits : call ∈ l.waiting.map Waiter.call := hcall.resolve_right (by simp)
      rw [expire_waiting h]
      exact Or.inl hwaits
  | tick now =>
      have hwaits : call ∈ l.waiting.map Waiter.call := hcall.resolve_right (by simp)
      obtain rfl := tick_some h
      exact Or.inl hwaits

end Service

namespace Sections

variable {ε α : Type} {s : Sections τ}

theorem holding?_some {call : Nat} {h : Holding τ} (hh : s.holding? call = some h) :
    h ∈ s.working ∧ h.call = call := mem_of_find?_key hh

/-- The step of the service that a label is, and the sections without their key in it. -/
inductive Serves (s : Sections τ) : SectionLabel τ ε α → Label τ → List Nat → Prop where
  | locker (step : Label τ) (stays : ∀ call ∈ s.entering, step ≠ .drop call) :
    Serves s (.locker step) step s.entering
  | enter (call : Nat) (key : String) (options : Options) (cancelled : Bool) (fresh : τ)
    (new : s.holding? call = none) :
    Serves s (.enter call key options cancelled fresh) (.lock call key options cancelled fresh)
      (call :: s.entering)

variable [DecidableEq τ]

/-- What one step of a lock service with sections does, and what it tells. -/
inductive Acts (s : Sections τ) (label : SectionLabel τ ε α) :
    Sections τ × List (SectionEvent τ ε α) → Prop where
  /-- The call of a section is granted, and the section works. -/
  | begin (step : Label τ) (entering : List Nat) (serves : Serves s label step entering)
    (m : Locker τ) (h : Holding τ)
    (made : s.locker.step step = some (m, [.granted h.call h.key h.token]))
    (own : h.call ∈ entering) :
    Acts s label (⟨m, entering.erase h.call, s.working ++ [h]⟩,
      [.locker (.granted h.call h.key h.token), .began h.call])
  /-- The call of a section fails, and this is its result. -/
  | fail (step : Label τ) (entering : List Nat) (serves : Serves s label step entering)
    (m : Locker τ) (call : Nat) (error : Error)
    (made : s.locker.step step = some (m, [.failed call error])) (own : call ∈ entering) :
    Acts s label (⟨m, entering.erase call, s.working⟩,
      [.locker (.failed call error), .ended call (.lockError error)])
  /-- The service makes a step that answers no section. -/
  | keep (step : Label τ) (entering : List Nat) (serves : Serves s label step entering)
    (o : Locker τ × List (Event τ)) (made : s.locker.step step = some o)
    (others : ∀ call ∈ entering, ¬ Answered call o.2) :
    Acts s label (⟨o.1, entering, s.working⟩, o.2.map .locker)
  /-- The work of a section ends by itself, and its lock is released. -/
  | finish (h : Holding τ) (work : Work ε α) (works : s.holding? h.call = some h)
    (own : label = .finish h.call work) :
    Acts s label
      (⟨(s.locker.release h.key h.token).1, s.entering, s.working.filter fun x => x.call ≠ h.call⟩,
        (s.locker.release h.key h.token).2.map .locker ++
          [.ended h.call (result work (s.locker.holder? h.key = some h.token))])
  /-- A section at work breaks off, and its lock is released. -/
  | quit (h : Holding τ) (works : s.holding? h.call = some h) (own : label = .abandon h.call) :
    Acts s label
      (⟨(s.locker.release h.key h.token).1, s.entering, s.working.filter fun x => x.call ≠ h.call⟩,
        (s.locker.release h.key h.token).2.map .locker)
  /-- A section that waits for its key breaks off, and its call goes away. -/
  | forsake (call : Nat) (waits : call ∈ s.entering) (own : label = .abandon call) :
    Acts s label (⟨s.locker.forget call, s.entering.erase call, s.working⟩, [])

theorem withLocker_release (s : Sections τ) (l : Locker τ) (key : String) (token : τ) :
    (s.withLocker (l.release key token) : Sections τ × List (SectionEvent τ ε α)) =
      ({ s with locker := (l.release key token).1 }, (l.release key token).2.map .locker) := by
  unfold Locker.release
  split <;> rfl

/-- What a step of the service means for the sections. -/
theorem withLocker_acts {label : SectionLabel τ ε α} {step : Label τ} {entering : List Nat}
    {o : Locker τ × List (Event τ)} (serves : Serves s label step entering)
    (made : s.locker.step step = some o) :
    Acts s label (withLocker { s with entering } o) := by
  obtain ⟨m, events⟩ := o
  obtain rfl | ⟨e, rfl⟩ : events = [] ∨ ∃ e, events = [e] := step_tells made
  · exact Acts.keep step entering serves (m, []) made (by simp [Answered])
  · cases e with
    | granted call key token =>
        by_cases hown : call ∈ entering
        · have hbegin := Acts.begin step entering serves m ⟨call, key, token⟩ made hown
          simpa [withLocker, absorbAll, absorb, hown] using hbegin
        · have hkeep := Acts.keep step entering serves _ made (by
            rintro other hother (⟨k, t, hmem⟩ | ⟨error, hmem⟩)
            · obtain ⟨rfl, -⟩ := Event.granted.inj (List.mem_singleton.mp hmem)
              exact hown hother
            · simp at hmem)
          simpa [withLocker, absorbAll, absorb, hown] using hkeep
    | failed call error =>
        by_cases hown : call ∈ entering
        · have hfail := Acts.fail step entering serves m call error made hown
          simpa [withLocker, absorbAll, absorb, hown] using hfail
        · have hkeep := Acts.keep step entering serves _ made (by
            rintro other hother (⟨k, t, hmem⟩ | ⟨error, hmem⟩)
            · simp at hmem
            · obtain ⟨rfl, -⟩ := Event.failed.inj (List.mem_singleton.mp hmem)
              exact hown hother)
          simpa [withLocker, absorbAll, absorb, hown] using hkeep
    | waits | removed | refused => exact Acts.keep step entering serves _ made (by simp [Answered])

theorem step_acts {label : SectionLabel τ ε α} {o : Sections τ × List (SectionEvent τ ε α)}
    (h : s.step label = some o) : Acts s label o := by
  cases label with
  | locker step =>
      have hserve (hstays : ∀ call ∈ s.entering, step ≠ .drop call)
          (hmade : (s.locker.step step).map s.withLocker = some o) : Acts s (.locker step) o := by
        obtain ⟨next, hnext, rfl⟩ := Option.map_eq_some_iff.mp hmade
        exact withLocker_acts (.locker step hstays) hnext
      simp only [Sections.step, stepLocker] at h
      split at h
      · rename_i call
        split at h
        · cases h
        · rename_i hout
          refine hserve (fun other hother heq => hout ?_) h
          rw [Label.drop.inj heq]
          exact List.contains_iff_mem.mpr hother
      · rename_i hother
        exact hserve (fun call _ => hother call) h
  | enter call key options cancelled fresh =>
      simp only [Sections.step, enter] at h
      split at h
      · cases h
      · rename_i hnew
        obtain ⟨next, hnext, rfl⟩ := Option.map_eq_some_iff.mp h
        exact withLocker_acts (.enter call key options cancelled fresh (by simpa using hnew)) hnext
  | finish call work =>
      simp only [Sections.step, finish] at h
      split at h
      · cases h
      · rename_i holding hholding
        obtain ⟨-, rfl⟩ := holding?_some hholding
        obtain rfl := Option.some.inj h
        rw [withLocker_release]
        exact Acts.finish holding work hholding rfl
  | abandon call =>
      simp only [Sections.step, abandon] at h
      split at h
      · rename_i holding hholding
        obtain ⟨-, rfl⟩ := holding?_some hholding
        obtain rfl := Option.some.inj h
        rw [withLocker_release]
        exact Acts.quit holding hholding rfl
      · split at h
        · rename_i hwaits
          obtain rfl := Option.some.inj h
          exact Acts.forsake call (List.contains_iff_mem.mp hwaits) rfl
        · cases h

end Sections

end Coordination.Lock
