import Coordination.Proofs.Lock.Exclusion

/-!
Wake-ups are not lost. A granted token is at any time either the owner of its record, with its
signal unfired, or released, with its signal fired. A call only ever waits for a token that was
granted for its key, so it waits for the present holder or has been woken; and a timer that has
outlived its record only has to run once more to be gone.
-/

namespace Coordination.Lock

variable {τ : Type}

def Locker.owners (l : Locker τ) : List τ := l.records.map Prod.snd

section Look

variable {l : Locker τ} {w v : Waiter τ} {fresh : τ}

/-- A look at a key fires no signal and tells of no removal. -/
theorem attempt_released (l : Locker τ) (w : Waiter τ) (fresh : τ) :
    (l.attempt w fresh).1.released = l.released ∧
      ∀ key token, .removed key token ∉ (l.attempt w fresh).2 := by
  unfold Locker.attempt
  split
  · exact ⟨rfl, by simp⟩
  · split
    · exact ⟨rfl, by simp⟩
    · exact ⟨rfl, by simp⟩

theorem attempt_owners (l : Locker τ) (w : Waiter τ) (fresh : τ) :
    (l.attempt w fresh).1.owners.Perm (l.owners ++ granted (l.attempt w fresh).2) := by
  unfold Locker.attempt
  split
  · exact (List.perm_append_singleton fresh l.owners).symm
  · split <;> simp [granted, Locker.owners]

/-- A call that begins to wait has found its key held, and waits for the holder. -/
theorem attempt_waiting (h : v ∈ (l.attempt w fresh).1.waiting) :
    v ∈ l.waiting ∨ l.holder? v.key = some v.signal := by
  unfold Locker.attempt at h
  split at h
  · exact Or.inl h
  · rename_i holder hheld
    split at h
    · exact Or.inl h
    · rcases List.mem_append.mp h with h | h
      · exact Or.inl h
      · obtain rfl := List.mem_singleton.mp h
        exact Or.inr hheld

theorem attempt_calls_nodup (h : (l.waiting.map Waiter.call).Nodup)
    (hnew : w.call ∉ l.waiting.map Waiter.call) :
    ((l.attempt w fresh).1.waiting.map Waiter.call).Nodup := by
  unfold Locker.attempt
  split
  · exact h
  · split
    · exact h
    · rw [List.map_append]
      exact h.append (List.nodup_singleton _) (List.disjoint_singleton.mpr hnew)

theorem attempt_timers_nodup (h : (l.timers.map Timer.owner).Nodup)
    (hnew : fresh ∉ l.timers.map Timer.owner) :
    ((l.attempt w fresh).1.timers.map Timer.owner).Nodup := by
  unfold Locker.attempt
  split
  · unfold Locker.grant
    dsimp only
    split
    · exact List.nodup_cons.mpr ⟨hnew, h⟩
    · exact h
  · split
    · exact h
    · exact h

end Look

/-- A held key has one record. -/
theorem records_perm {records : List (String × τ)} (h : (records.map Prod.fst).Nodup)
    {key : String} {token : τ} (hmem : (key, token) ∈ records) :
    records.Perm ((key, token) :: records.filter fun r => r.1 ≠ key) := by
  obtain ⟨before, after, rfl⟩ := List.append_of_mem hmem
  rw [List.map_append, List.map_cons, List.nodup_middle, List.nodup_cons, ← List.map_append] at h
  have hother (r : String × τ) (hr : r ∈ before ++ after) : r.1 ≠ key := by
    have hkey : r.1 ∈ (before ++ after).map Prod.fst := List.mem_map_of_mem hr
    intro heq
    exact h.1 (heq ▸ hkey)
  have hbefore : before.filter (fun r => r.1 ≠ key) = before :=
    List.filter_eq_self.mpr fun r hr => by simpa using hother r (List.mem_append_left after hr)
  have hafter : after.filter (fun r => r.1 ≠ key) = after :=
    List.filter_eq_self.mpr fun r hr => by simpa using hother r (List.mem_append_right before hr)
  have hrest : (before ++ (key, token) :: after).filter (fun r => r.1 ≠ key) = before ++ after := by
    rw [List.filter_append, List.filter_cons, hbefore, hafter]
    simp
  rw [hrest]
  exact List.perm_middle

theorem granted_append (h k : List (Event τ)) : granted (h ++ k) = granted h ++ granted k :=
  List.filterMap_append

theorem granted_quiet {events : List (Event τ)} (quiet : ∀ e ∈ events, e.Quiet) :
    granted events = [] := by
  apply List.filterMap_eq_nil_iff.mpr
  intro e he
  have hquiet := quiet e he
  cases e with
  | granted | removed => exact hquiet.elim
  | failed | waits | refused => rfl

theorem waiter?_eq_some {l : Locker τ} (h : (l.waiting.map Waiter.call).Nodup) {w : Waiter τ}
    (hw : w ∈ l.waiting) : l.waiter? w.call = some w := find?_key h hw

variable [DecidableEq τ]

section Step

variable {l : Locker τ} {label : Label τ} {o : Locker τ × List (Event τ)}

theorem step_released (h : l.step label = some o) (token : τ) :
    token ∈ o.1.released ↔ token ∈ l.released ∨ ∃ key, .removed key token ∈ o.2 := by
  have hquiet {events : List (Event τ)} (quiet : ∀ e ∈ events, e.Quiet) :
      ¬ ∃ key, .removed key token ∈ events := by
    rintro ⟨key, hmem⟩
    exact quiet _ hmem
  cases step_acts h with
  | look w fresh drawn known =>
      obtain ⟨hreleased, hnone⟩ := attempt_released (l.forget w.call) w fresh
      have hsame : (l.forget w.call).released = l.released := rfl
      rw [hreleased, hsame]
      simp [hnone]
  | leave waiting fewer events quiet => simp [hquiet quiet]
  | remove key owner timers fewer held frees => simp [or_comm]
  | pass timers fewer now events quiet => simp [hquiet quiet]

/-- A removal takes a token from the holders to the released ones, a grant adds one to the
holders. -/
theorem step_tokens (h : l.step label = some o) (hkeys : (l.records.map Prod.fst).Nodup) :
    (o.1.released ++ o.1.owners).Perm (l.released ++ l.owners ++ granted o.2) := by
  cases step_acts h with
  | look w fresh drawn known =>
      have hlook := attempt_owners (l.forget w.call) w fresh
      have hsame : (l.forget w.call).released = l.released := rfl
      rw [(attempt_released (l.forget w.call) w fresh).1, hsame, List.append_assoc]
      exact hlook.append_left l.released
  | leave waiting fewer events quiet =>
      rw [granted_quiet quiet, List.append_nil]
      exact List.Perm.refl _
  | remove key token timers fewer held frees =>
      have hmem := (holder?_eq_some hkeys).mp held
      have hrecords := (records_perm hkeys hmem).map Prod.snd
      have hnone : granted [Event.removed key token] = [] := rfl
      rw [hnone, List.append_nil]
      exact List.perm_middle.symm.trans (hrecords.symm.append_left l.released)
  | pass timers fewer now events quiet =>
      rw [granted_quiet quiet, List.append_nil]
      exact List.Perm.refl _

theorem step_waiting (h : l.step label = some o) {v : Waiter τ} (hv : v ∈ o.1.waiting) :
    (∃ w ∈ l.waiting, w.key = v.key ∧ w.signal = v.signal) ∨
      l.holder? v.key = some v.signal := by
  cases step_acts h with
  | look w fresh drawn known =>
      rcases attempt_waiting hv with hold | hheld
      · exact Or.inl ⟨v, List.mem_of_mem_filter hold, rfl, rfl⟩
      · exact Or.inr hheld
  | leave waiting fewer events quiet =>
      obtain ⟨w, hw, heq⟩ := List.mem_map.mp (fewer.subset (List.mem_map_of_mem hv))
      obtain ⟨-, hkey, hsignal⟩ : w.call = v.call ∧ w.key = v.key ∧ w.signal = v.signal := by
        simpa [Waiter.place] using heq
      exact Or.inl ⟨w, hw, hkey, hsignal⟩
  | remove | pass => exact Or.inl ⟨v, hv, rfl, rfl⟩

theorem step_calls_nodup (h : l.step label = some o) (hcalls : (l.waiting.map Waiter.call).Nodup) :
    (o.1.waiting.map Waiter.call).Nodup := by
  cases step_acts h with
  | look w fresh drawn known =>
      have hforget : (l.forget w.call).waiting.Sublist l.waiting := List.filter_sublist
      apply attempt_calls_nodup (hcalls.sublist (hforget.map Waiter.call))
      intro hcall
      obtain ⟨v, hv, heq⟩ := List.mem_map.mp hcall
      simpa [heq] using (List.mem_filter.mp hv).2
  | leave waiting fewer events quiet =>
      have hfewer := fewer.map Prod.fst
      rw [List.map_map, List.map_map] at hfewer
      exact hcalls.sublist hfewer
  | remove | pass => exact hcalls

theorem step_timers_nodup (h : l.step label = some o) (htimers : (l.timers.map Timer.owner).Nodup)
    (hnew : ∀ token ∈ label.drawn?, token ∉ l.timers.map Timer.owner) :
    (o.1.timers.map Timer.owner).Nodup := by
  cases step_acts h with
  | look w fresh drawn known => exact attempt_timers_nodup htimers (hnew fresh drawn)
  | leave => exact htimers
  | remove key token timers fewer => exact htimers.sublist (fewer.map Timer.owner)
  | pass timers fewer => exact htimers.sublist (fewer.map Timer.owner)

end Step

section Run

variable {l : Locker τ} {labels : List (Label τ)} {history : List (Event τ)}

/-- The fired signals are those of the removed records. -/
theorem Run.released_iff (run : Run l labels history) (token : τ) :
    token ∈ l.released ↔ ∃ key, .removed key token ∈ history := by
  induction run with
  | start => simp
  | next run fresh hstep ih =>
      rw [step_released hstep, ih]
      simp only [List.mem_append, exists_or]

/-- Every granted token is released or holds its key, and not both. -/
theorem Run.tokens_perm (run : Run l labels history) :
    (l.released ++ l.owners).Perm (granted history) := by
  induction run with
  | start => exact List.Perm.nil
  | next run fresh hstep ih =>
      rw [granted_append]
      exact (step_tokens hstep run.recorded.keys_nodup).trans (ih.append_right _)

theorem Run.owner_not_released (run : Run l labels history) {key : String} {token : τ}
    (h : (key, token) ∈ l.records) : token ∉ l.released := by
  have hnodup := run.tokens_perm.nodup_iff.mpr run.granted_nodup
  have howner : token ∈ l.owners := List.mem_map_of_mem h
  intro hreleased
  exact List.disjoint_of_nodup_append hnodup hreleased howner

/-- A token that was granted for a key holds it, or its signal has fired. -/
theorem Run.held_or_released (run : Run l labels history) {call : Nat} {key : String} {token : τ}
    (h : .granted call key token ∈ history) :
    l.holder? key = some token ∨ token ∈ l.released := by
  obtain ⟨before, after, rfl⟩ := List.append_of_mem h
  by_cases hremoved : .removed key token ∈ after
  · right
    rw [run.released_iff]
    exact ⟨key, List.mem_append_right _ (List.mem_cons_of_mem _ hremoved)⟩
  · left
    exact (run.holder?_iff key token).mpr ⟨before, call, after, rfl, hremoved⟩

theorem Run.signal_granted (run : Run l labels history) :
    ∀ w ∈ l.waiting, ∃ call, .granted call w.key w.signal ∈ history := by
  induction run with
  | start => simp
  | next run fresh hstep ih =>
      intro v hv
      rcases step_waiting hstep hv with ⟨w, hw, hkey, hsignal⟩ | hheld
      · obtain ⟨call, hcall⟩ := ih w hw
        rw [← hkey, ← hsignal]
        exact ⟨call, List.mem_append_left _ hcall⟩
      · obtain ⟨before, call, after, rfl, -⟩ := (run.holder?_iff v.key v.signal).mp hheld
        exact ⟨call, by simp⟩

theorem Run.calls_nodup (run : Run l labels history) : (l.waiting.map Waiter.call).Nodup := by
  induction run with
  | start => exact List.nodup_nil
  | next run fresh hstep ih => exact step_calls_nodup hstep ih

/-- A token has at most one timer. -/
theorem Run.timers_nodup (run : Run l labels history) : (l.timers.map Timer.owner).Nodup := by
  induction run with
  | start => exact List.nodup_nil
  | next run fresh hstep ih =>
      apply step_timers_nodup hstep ih
      intro token drawn howner
      obtain ⟨timer, htimer, rfl⟩ := List.mem_map.mp howner
      obtain ⟨call, hcall⟩ := run.timer_granted timer htimer
      exact fresh timer.owner drawn (List.mem_filterMap.mpr ⟨_, hcall, rfl⟩)

end Run

theorem signalled_iff {l : Locker τ} {token : τ} :
    l.signalled token = true ↔ token ∈ l.released := by
  simp [Locker.signalled]

/-- A call that has been woken can look at its key again. -/
theorem retry_woken {l : Locker τ} (h : (l.waiting.map Waiter.call).Nodup) {w : Waiter τ}
    (hw : w ∈ l.waiting) (hwoken : l.signalled w.signal = true) (fresh : τ) :
    l.step (.retry w.call fresh) = some ((l.forget w.call).attempt w fresh) := by
  simp only [Locker.step, Locker.retry, waiter?_eq_some h hw, hwoken, if_true]

/-- A timer of a released token ends without a trace. -/
theorem expire_released {l : Locker τ} (h : (l.timers.map Timer.owner).Nodup) {timer : Timer τ}
    (htimer : timer ∈ l.timers) (hreleased : l.signalled timer.owner = true) :
    l.step (.expire timer.key timer.owner) =
      some ({ l with timers := l.timers.erase timer }, []) := by
  have hfind : l.timers.find? (fun t => t.key = timer.key ∧ t.owner = timer.owner) =
      some timer := by
    cases hfind : l.timers.find? (fun t => t.key = timer.key ∧ t.owner = timer.owner) with
    | none => simpa using List.find?_eq_none.mp hfind timer htimer
    | some other =>
        have hsame : other.key = timer.key ∧ other.owner = timer.owner := by
          simpa using List.find?_some hfind
        rw [List.inj_on_of_nodup_map h (List.mem_of_find?_eq_some hfind) htimer hsame.2]
  simp only [Locker.step, Locker.expire, hfind, hreleased, if_true]

/-- No wake-up is lost, whatever is done in whatever order, as long as no token is drawn twice. The
signal of a record is unfired and that of a removed record is fired; a waiting call waits for the
token that holds its key, or for a fired signal. So a call that does not wait for the present
holder can go on, and gets its key if that is free; and a timer whose lock has gone can go, taking
nothing but itself away. -/
theorem no_lost_wakeup {l : Locker τ} {labels : List (Label τ)} {history : List (Event τ)}
    (run : Run l labels history) :
    (∀ key t, (key, t) ∈ l.records → l.signalled t = false) ∧
    (∀ key t, .removed key t ∈ history → l.signalled t = true) ∧
    (∀ w ∈ l.waiting, l.holder? w.key = some w.signal ∨ l.signalled w.signal = true) ∧
    (∀ w ∈ l.waiting, l.holder? w.key ≠ some w.signal → ∀ fresh,
      (l.step (.retry w.call fresh)).isSome) ∧
    (∀ w ∈ l.waiting, l.holder? w.key = none → ∀ fresh, ∃ m,
      l.step (.retry w.call fresh) = some (m, [.granted w.call w.key fresh])) ∧
    (∀ timer ∈ l.timers, l.holder? timer.key ≠ some timer.owner →
      l.step (.expire timer.key timer.owner) =
        some ({ l with timers := l.timers.erase timer }, []) ∧
      ∀ other ∈ l.timers.erase timer, other.owner ≠ timer.owner) := by
  have hwaits (w : Waiter τ) (hw : w ∈ l.waiting) :
      l.holder? w.key = some w.signal ∨ l.signalled w.signal = true := by
    obtain ⟨call, hcall⟩ := run.signal_granted w hw
    rw [signalled_iff]
    exact run.held_or_released hcall
  have hretry (w : Waiter τ) (hw : w ∈ l.waiting) (hnot : l.holder? w.key ≠ some w.signal)
      (fresh : τ) : l.step (.retry w.call fresh) = some ((l.forget w.call).attempt w fresh) :=
    retry_woken run.calls_nodup hw ((hwaits w hw).resolve_left hnot) fresh
  refine ⟨?_, ?_, hwaits, ?_, ?_, ?_⟩
  · intro key t hmem
    rw [← Bool.not_eq_true, signalled_iff]
    exact run.owner_not_released hmem
  · intro key t hremoved
    rw [signalled_iff, run.released_iff]
    exact ⟨key, hremoved⟩
  · intro w hw hnot fresh
    rw [hretry w hw hnot fresh]
    rfl
  · intro w hw hfree fresh
    have hfree' : (l.forget w.call).holder? w.key = none := hfree
    rw [hretry w hw (by simp [hfree]) fresh, Locker.attempt, hfree']
    exact ⟨_, rfl⟩
  · intro timer htimer hnot
    obtain ⟨call, hcall⟩ := run.timer_granted timer htimer
    have hreleased := (run.held_or_released hcall).resolve_left hnot
    have htimers := run.timers_nodup
    refine ⟨expire_released htimers htimer (signalled_iff.mpr hreleased), ?_⟩
    intro other hother howner
    have hsame : other = timer :=
      List.inj_on_of_nodup_map htimers (List.mem_of_mem_erase hother) htimer howner
    have hnodup : l.timers.Nodup := List.Nodup.of_map Timer.owner htimers
    exact hnodup.not_mem_erase (hsame ▸ hother)

/-- A key passes from one holder to another while two calls wait for the first; its timer is left
over, one of the two calls goes away, and the key becomes free again. -/
def handoverSteps : List (Label Nat) :=
  [.lock 0 "a" { expiration := some ⟨9, by decide⟩ } false 10, .lock 1 "a" {} false 11,
    .lock 2 "a" {} false 12, .release "a" 10, .lock 3 "a" {} false 13, .retry 2 14, .drop 2,
    .release "a" 13]

theorem no_lost_wakeup_handover : ∃ (l : Locker Nat) (history : List (Event Nat)),
    Run l handoverSteps history ∧
    l.records = [] ∧ l.waiting.map Waiter.place = [(1, "a", 10)] ∧
    l.timers = [⟨"a", 10, 9⟩] ∧
    (∀ w ∈ l.waiting, l.holder? w.key = none → ∀ fresh, ∃ m,
      l.step (.retry w.call fresh) = some (m, [.granted w.call w.key fresh])) := by
  have run : Run _ ([] ++ handoverSteps) _ := Run.start.replay rfl
  exact ⟨_, _, run, by decide, by decide, by decide, (no_lost_wakeup run).2.2.2.2.1⟩

end Coordination.Lock
