import Mathlib.Logic.Function.Basic
import Coordination.Proofs.Lock.Step

/-!
What a lock service knows of one key: the record of the key, the calls that wait for it and its
timers. A step for the key does the same in a service that knows of no other key, and a step for
another key is none there. Signals are not told apart by keys, so it is assumed here of the tokens
that a step may ask about that both services say the same of them.
-/

namespace Coordination.Lock

variable {τ : Type}

/-- A service that knows of one key what another one knows of it. -/
structure Slice (key : String) (l m : Locker τ) : Prop where
  records : m.records = l.records.filter fun r => r.1 = key
  waiting : m.waiting = l.waiting.filter fun w => w.key = key
  timers : m.timers = l.timers.filter fun t => t.key = key
  now : m.now = l.now

def Label.key? (keys : Nat → Option String) : Label τ → Option String
  | .lock _ key _ _ _ | .release key _ | .expire key _ => some key
  | .retry call _ | .cancel call | .giveUp call | .drop call => keys call
  | .tick _ => none

/-- A step is left when the steps for other keys are taken out. Time passes for all keys. -/
def Label.stays (key : String) (keys : Nat → Option String) : Label τ → Bool
  | .tick _ => true
  | label => label.key? keys = some key

/-- The keys of the calls are right about those that wait. -/
def Knows (keys : Nat → Option String) (l : Locker τ) : Prop :=
  ∀ w ∈ l.waiting, keys w.call = some w.key

section Parts

variable {key : String} {l m : Locker τ} {call : Nat}

theorem Slice.holder? (h : Slice key l m) : m.holder? key = l.holder? key := by
  rw [Locker.holder?, h.records, lookup_filter_key, Locker.holder?]

theorem Slice.mem_waiting (h : Slice key l m) {w : Waiter τ} :
    w ∈ m.waiting ↔ w ∈ l.waiting ∧ w.key = key := by
  rw [h.waiting, List.mem_filter, decide_eq_true_eq]

theorem Slice.mem_timers (h : Slice key l m) {t : Timer τ} :
    t ∈ m.timers ↔ t ∈ l.timers ∧ t.key = key := by
  rw [h.timers, List.mem_filter, decide_eq_true_eq]

theorem Slice.waiter? (h : Slice key l m) (own : ∀ w ∈ l.waiting, w.call = call → w.key = key) :
    m.waiter? call = l.waiter? call := by
  rw [Locker.waiter?, h.waiting, find?_filter_of, Locker.waiter?]
  intro w hw hcall
  exact decide_eq_true (own w hw (of_decide_eq_true hcall))

theorem Slice.forget (h : Slice key l m) (call : Nat) :
    Slice key (l.forget call) (m.forget call) where
  records := h.records
  waiting := by rw [Locker.forget, h.waiting, Locker.forget, List.filter_comm]
  timers := h.timers
  now := h.now

theorem Slice.cancel (h : Slice key l m) (call : Nat) :
    Slice key (l.cancel call) (m.cancel call) where
  records := h.records
  waiting := by
    simp only [Locker.cancel, h.waiting, List.filter_map]
    congr 1
    apply List.filter_congr
    intro w _
    simp only [Function.comp]
    split <;> rfl
  timers := h.timers
  now := h.now

theorem Slice.grant (h : Slice key l m) (options : Options) (fresh : τ) :
    Slice key (l.grant key options fresh) (m.grant key options fresh) where
  records := by simp [Locker.grant, h.records]
  waiting := h.waiting
  timers := by
    unfold Locker.grant
    dsimp only
    split
    · simp [h.timers, h.now]
    · exact h.timers
  now := h.now

theorem Slice.drop_timer [DecidableEq τ] (h : Slice key l m) (t : Timer τ) :
    Slice key { l with timers := l.timers.erase t } { m with timers := m.timers.erase t } where
  records := h.records
  waiting := h.waiting
  timers := by
    dsimp only
    rw [h.timers, List.erase_filter]
  now := h.now

theorem Slice.remove [DecidableEq τ] (h : Slice key l m) (owner : τ) :
    Option.Rel (Slice key) (l.remove key owner) (m.remove key owner) := by
  unfold Locker.remove
  rw [h.holder?]
  split
  · apply Option.Rel.some
    refine ⟨?_, h.waiting, h.timers, h.now⟩
    dsimp only
    rw [h.records, List.filter_comm]
  · exact Option.Rel.none

end Parts

section Foreign

variable {key other : String} {l m : Locker τ} {call : Nat}

theorem Slice.skip_grant (h : Slice key l m) (foreign : other ≠ key) (options : Options)
    (fresh : τ) : Slice key (l.grant other options fresh) m where
  records := by simp [Locker.grant, h.records, foreign]
  waiting := h.waiting
  timers := by
    unfold Locker.grant
    dsimp only
    split
    · simp [h.timers, foreign]
    · exact h.timers
  now := h.now

theorem Slice.skip_attempt (h : Slice key l m) {w : Waiter τ} (foreign : w.key ≠ key) (fresh : τ) :
    Slice key (l.attempt w fresh).1 m := by
  unfold Locker.attempt
  split
  · exact h.skip_grant foreign w.options fresh
  · split
    · exact h
    · refine ⟨h.records, ?_, h.timers, h.now⟩
      simp [h.waiting, foreign]

theorem Slice.skip_forget (h : Slice key l m)
    (foreign : ∀ w ∈ l.waiting, w.call = call → w.key ≠ key) : Slice key (l.forget call) m where
  records := h.records
  waiting := by
    rw [h.waiting, Locker.forget, filter_filter_of]
    intro w hw hkey
    exact decide_eq_true fun hcall => foreign w hw hcall (of_decide_eq_true hkey)
  timers := h.timers
  now := h.now

theorem Slice.skip_cancel (h : Slice key l m)
    (foreign : ∀ w ∈ l.waiting, w.call = call → w.key ≠ key) : Slice key (l.cancel call) m where
  records := h.records
  waiting := by
    have hsame : ∀ w ∈ m.waiting,
        (if w.call = call then { w with cancelled := true } else w) = w := by
      intro w hw
      obtain ⟨hmem, hkey⟩ := h.mem_waiting.mp hw
      exact if_neg fun hcall => foreign w hmem hcall hkey
    have hkeep : (m.cancel call).waiting = m.waiting := by
      rw [Locker.cancel, List.map_congr_left hsame, List.map_id']
    exact hkeep.symm.trans (h.cancel call).waiting
  timers := h.timers
  now := h.now

theorem Slice.skip_drop_timer [DecidableEq τ] (h : Slice key l m) {t : Timer τ}
    (foreign : t.key ≠ key) : Slice key { l with timers := l.timers.erase t } m where
  records := h.records
  waiting := h.waiting
  timers := by
    have hnot : t ∉ m.timers := fun ht => foreign (h.mem_timers.mp ht).2
    rw [h.timers] at hnot
    rw [h.timers, ← List.erase_filter, List.erase_of_not_mem hnot]
  now := h.now

theorem Slice.skip_remove [DecidableEq τ] (h : Slice key l m) (foreign : other ≠ key) {owner : τ}
    {o : Locker τ} (ho : l.remove other owner = some o) : Slice key o m := by
  obtain ⟨-, rfl⟩ := remove_some ho
  refine ⟨?_, h.waiting, h.timers, h.now⟩
  dsimp only
  rw [h.records, filter_filter_of]
  intro r _ hkey
  exact decide_eq_true fun hother => foreign (hother.symm.trans (of_decide_eq_true hkey))

end Foreign

/-- What came of two steps: they told the same and left a service and its slice. -/
structure Alike (key : String) (o p : Locker τ × List (Event τ)) : Prop where
  slice : Slice key o.1 p.1
  events : p.2 = o.2

section Calls

variable {key : String} {keys : Nat → Option String} {l m : Locker τ} {call : Nat}

theorem Knows.own (h : Knows keys l) (hcall : keys call = some key) :
    ∀ w ∈ l.waiting, w.call = call → w.key = key := by
  rintro w hw rfl
  exact Option.some.inj ((h w hw).symm.trans hcall)

theorem Knows.foreign (h : Knows keys l) (hcall : keys call ≠ some key) :
    ∀ w ∈ l.waiting, w.call = call → w.key ≠ key := by
  rintro w hw rfl rfl
  exact hcall (h w hw)

theorem Slice.attempt (h : Slice key l m) {w : Waiter τ} (own : w.key = key) (fresh : τ) :
    Alike key (l.attempt w fresh) (m.attempt w fresh) := by
  subst own
  have hholder := h.holder?
  unfold Locker.attempt
  rw [hholder]
  split
  · exact ⟨h.grant w.options fresh, rfl⟩
  · split
    · exact ⟨h, rfl⟩
    · refine ⟨⟨h.records, ?_, h.timers, h.now⟩, rfl⟩
      simp [h.waiting]

theorem Slice.lock (h : Slice key l m) (new : l.waiter? call = none) (options : Options)
    (cancelled : Bool) (fresh : τ) :
    Option.Rel (Alike key) (l.lock call key options cancelled fresh)
      (m.lock call key options cancelled fresh) := by
  have new' : m.waiter? call = none := by
    rw [Locker.waiter?, List.find?_eq_none] at new ⊢
    intro w hw
    exact new w (h.mem_waiting.mp hw).1
  have hlook := h.attempt (w := ⟨call, key, options, 0, fresh, cancelled⟩) rfl fresh
  simpa [Locker.lock, new, new'] using Option.Rel.some hlook

theorem Slice.giveUp (h : Slice key l m) (own : ∀ w ∈ l.waiting, w.call = call → w.key = key) :
    Option.Rel (Alike key) (l.giveUp call) (m.giveUp call) := by
  unfold Locker.giveUp
  rw [h.waiter? own]
  split
  · split
    · exact Option.Rel.some ⟨h.forget call, rfl⟩
    · exact Option.Rel.none
  · exact Option.Rel.none

end Calls

variable [DecidableEq τ]

/-- The signals that the second service may ask about have fired in both or in neither. -/
structure Hears (l m : Locker τ) : Prop where
  waiting : ∀ w ∈ m.waiting, m.signalled w.signal = l.signalled w.signal
  timers : ∀ t ∈ m.timers, m.signalled t.owner = l.signalled t.owner

/-- No waiting call has the number of a new one. -/
def Label.Numbered (l : Locker τ) : Label τ → Prop
  | .lock call _ _ _ _ => l.waiter? call = none
  | _ => True

section Step

variable {key : String} {keys : Nat → Option String} {l m : Locker τ} {call : Nat}

theorem Slice.retry (h : Slice key l m) (hears : Hears l m)
    (own : ∀ w ∈ l.waiting, w.call = call → w.key = key) (fresh : τ) :
    Option.Rel (Alike key) (l.retry call fresh) (m.retry call fresh) := by
  unfold Locker.retry
  rw [h.waiter? own]
  split
  · rename_i w hw
    obtain ⟨hmem, hcall⟩ := waiter?_some hw
    have hkey := own w hmem hcall
    rw [hears.waiting w (h.mem_waiting.mpr ⟨hmem, hkey⟩)]
    split
    · exact Option.Rel.some ((h.forget call).attempt hkey fresh)
    · exact Option.Rel.none
  · exact Option.Rel.none

theorem Slice.release (h : Slice key l m) (token : τ) :
    Alike key (l.release key token) (m.release key token) := by
  have hremove := h.remove token
  unfold Locker.release
  generalize l.remove key token = o, m.remove key token = p at hremove
  cases hremove with
  | some slice => exact ⟨slice, rfl⟩
  | none => exact ⟨h, rfl⟩

theorem Slice.expire (h : Slice key l m) (hears : Hears l m) (owner : τ) :
    Option.Rel (Alike key) (l.expire key owner) (m.expire key owner) := by
  have hfind : m.timers.find? (fun t => t.key = key ∧ t.owner = owner) =
      l.timers.find? fun t => t.key = key ∧ t.owner = owner := by
    rw [h.timers, find?_filter_of]
    intro t _ ht
    exact decide_eq_true (of_decide_eq_true ht).1
  unfold Locker.expire
  rw [hfind]
  split
  · exact Option.Rel.none
  · rename_i t ht
    obtain ⟨hkey, rfl⟩ : t.key = key ∧ t.owner = owner := by simpa using List.find?_some ht
    have htimer : t ∈ m.timers := h.mem_timers.mpr ⟨List.mem_of_find?_eq_some ht, hkey⟩
    have hrest := h.drop_timer t
    -- Only here do both clocks count; the states that come of it keep their own.
    have hdue : t.due ≤ m.now ↔ t.due ≤ l.now := by rw [h.now]
    simp only [hears.timers t htimer, hdue]
    split
    · exact Option.Rel.some ⟨hrest, rfl⟩
    · split
      · have hremove := hrest.remove t.owner
        generalize Locker.remove { l with timers := l.timers.erase t } key t.owner = o,
          Locker.remove { m with timers := m.timers.erase t } key t.owner = p at hremove
        cases hremove with
        | some slice => exact Option.Rel.some ⟨slice, rfl⟩
        | none => exact Option.Rel.some ⟨hrest, rfl⟩
      · exact Option.Rel.none

theorem Slice.skip_expire (h : Slice key l m) {other : String} (foreign : other ≠ key) {owner : τ}
    {o : Locker τ × List (Event τ)} (ho : l.expire other owner = some o) : Slice key o.1 m := by
  obtain ⟨t, -, rfl, -, rfl | ⟨-, rest, hremove, rfl⟩⟩ := expire_some ho
  · exact h.skip_drop_timer foreign
  · exact (h.skip_drop_timer foreign).skip_remove foreign hremove

/-- A step that stays can be taken in a service or in neither, and comes to the same. -/
theorem Slice.step (h : Slice key l m) (hears : Hears l m) (knows : Knows keys l) {label : Label τ}
    (stays : label.stays key keys = true) (numbered : label.Numbered l) :
    Option.Rel (Alike key) (l.step label) (m.step label) := by
  cases label with
  | lock call k options cancelled fresh =>
      obtain rfl : k = key := by simpa [Label.stays, Label.key?] using stays
      exact h.lock numbered options cancelled fresh
  | retry call fresh => exact h.retry hears (knows.own (of_decide_eq_true stays)) fresh
  | cancel call => exact Option.Rel.some ⟨h.cancel call, rfl⟩
  | giveUp call => exact h.giveUp (knows.own (of_decide_eq_true stays))
  | drop call => exact Option.Rel.some ⟨h.forget call, rfl⟩
  | release k token =>
      obtain rfl : k = key := by simpa [Label.stays, Label.key?] using stays
      exact Option.Rel.some (h.release token)
  | expire k owner =>
      obtain rfl : k = key := by simpa [Label.stays, Label.key?] using stays
      exact h.expire hears owner
  | tick now =>
      simp only [Locker.step, h.now]
      split
      · exact Option.Rel.some ⟨⟨h.records, h.waiting, h.timers, rfl⟩, rfl⟩
      · exact Option.Rel.none

/-- A step for another key is none for this one. -/
theorem Slice.skip (h : Slice key l m) (knows : Knows keys l) {label : Label τ}
    (away : label.stays key keys = false) {o : Locker τ × List (Event τ)}
    (ho : l.step label = some o) : Slice key o.1 m := by
  cases label with
  | lock call k options cancelled fresh =>
      have hkey : k ≠ key := by simpa [Label.stays, Label.key?] using away
      obtain ⟨-, rfl⟩ := lock_some ho
      exact h.skip_attempt hkey fresh
  | retry call fresh =>
      have hforeign := knows.foreign (of_decide_eq_false away)
      obtain ⟨w, hw, -, rfl⟩ := retry_some ho
      obtain ⟨hmem, hcall⟩ := waiter?_some hw
      exact (h.skip_forget hforeign).skip_attempt (hforeign w hmem hcall) fresh
  | cancel call =>
      obtain rfl := Option.some.inj ho
      exact h.skip_cancel (knows.foreign (of_decide_eq_false away))
  | giveUp call =>
      obtain rfl := giveUp_some ho
      exact h.skip_forget (knows.foreign (of_decide_eq_false away))
  | drop call =>
      obtain rfl := Option.some.inj ho
      exact h.skip_forget (knows.foreign (of_decide_eq_false away))
  | release k token =>
      have hkey : k ≠ key := by simpa [Label.stays, Label.key?] using away
      obtain rfl := Option.some.inj ho
      rcases release_cases l k token with ⟨rest, hremove, heq⟩ | heq
      · rw [heq]
        exact h.skip_remove hkey hremove
      · rw [heq]
        exact h
  | expire k owner =>
      have hkey : k ≠ key := by simpa [Label.stays, Label.key?] using away
      exact h.skip_expire hkey ho
  | tick now => cases away

end Step

end Coordination.Lock
