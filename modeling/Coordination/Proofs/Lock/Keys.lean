import Coordination.Lock.Token
import Coordination.Proofs.Lock.Slices
import Coordination.Proofs.Lock.Wakeup

/-!
Keys do not interact. Out of any run the steps for all keys but one can be deleted, and what is left
is a run that tells the same of this key at the same times. It comes to a service that knows of the
key what the service of the whole run knows. The keys of users differ, so what is done for one user
is nothing to another.
-/

namespace Coordination.Lock

variable {τ : Type}

/-- The keys of the calls after a step: a new call is for its key, also when its number had been
used before. -/
def Label.learn (keys : Nat → Option String) : Label τ → Nat → Option String
  | .lock call key _ _ _ => Function.update keys call (some key)
  | _ => keys

def Event.key? (keys : Nat → Option String) : Event τ → Option String
  | .granted _ key _ | .removed key _ | .refused key _ => some key
  | .failed call _ | .waits call _ => keys call

def noCalls : Nat → Option String := fun _ => none

def learned (keys : Nat → Option String) (seen : List (Moment τ)) : Nat → Option String :=
  seen.foldl (fun keys x => x.label.learn keys) keys

/-- The moments that are left when the steps for other keys are deleted. -/
def onKey (key : String) (keys : Nat → Option String) : List (Moment τ) → List (Moment τ)
  | [] => []
  | x :: seen =>
    let rest := onKey key (x.label.learn keys) seen
    if x.label.stays key keys then x :: rest else rest

/-- What is told of a key, and when. -/
def about (key : String) (keys : Nat → Option String) : List (Moment τ) → List (Nat × Event τ)
  | [] => []
  | x :: seen =>
    (x.events.filter fun e => e.key? (x.label.learn keys) = some key).map (Prod.mk x.time) ++
      about key (x.label.learn keys) seen

section Deleting

variable {key : String} {keys : Nat → Option String}

theorem learned_append (keys : Nat → Option String) (seen more : List (Moment τ)) :
    learned keys (seen ++ more) = learned (learned keys seen) more := List.foldl_append

theorem onKey_append (key : String) (keys : Nat → Option String) (seen more : List (Moment τ)) :
    onKey key keys (seen ++ more) = onKey key keys seen ++ onKey key (learned keys seen) more := by
  induction seen generalizing keys with
  | nil => rfl
  | cons x seen ih =>
      simp only [List.cons_append, onKey, ih]
      split <;> rfl

theorem about_append (key : String) (keys : Nat → Option String) (seen more : List (Moment τ)) :
    about key keys (seen ++ more) = about key keys seen ++ about key (learned keys seen) more := by
  induction seen generalizing keys with
  | nil => rfl
  | cons x seen ih =>
      simp only [List.cons_append, about, ih, List.append_assoc]
      rfl

theorem onKey_sublist (seen : List (Moment τ)) : (onKey key keys seen).Sublist seen := by
  induction seen generalizing keys with
  | nil => exact List.Sublist.slnil
  | cons x seen ih =>
      unfold onKey
      dsimp only
      split
      · exact ih.cons_cons x
      · exact ih.cons x

/-- What names its key is told at all just if it is told of that key. -/
theorem mem_told_iff {e : Event τ} (hkey : ∀ keys, e.key? keys = some key)
    (keys : Nat → Option String) (seen : List (Moment τ)) :
    e ∈ told seen ↔ ∃ t, (t, e) ∈ about key keys seen := by
  induction seen generalizing keys with
  | nil => simp [told, about]
  | cons x seen ih =>
      have hrest := ih (x.label.learn keys)
      simp only [told, List.flatMap_cons, List.mem_append, about, List.mem_map, List.mem_filter,
        exists_or] at hrest ⊢
      rw [hrest]
      simp [hkey]

theorem fresh_onKey {label : Label τ} (fresh : Fresh label (told seen)) (key : String)
    (keys : Nat → Option String) : Fresh label (told (onKey key keys seen)) :=
  fresh_sublist fresh (onKey_sublist seen)

end Deleting

section Learning

variable {key : String} {keys keys' : Nat → Option String} {l : Locker τ} {label : Label τ}

/-- The keys of the calls that are left after a deletion are right about those for the key. -/
def Recalls (key : String) (keys keys' : Nat → Option String) : Prop :=
  ∀ call, keys call = some key → keys' call = some key

theorem Recalls.learn (h : Recalls key keys keys') (label : Label τ) :
    Recalls key (label.learn keys) (label.learn keys') := by
  cases label with
  | lock call k options cancelled fresh =>
      intro c hc
      by_cases hcall : c = call
      · simpa [Label.learn, hcall] using hc
      · simpa [Label.learn, hcall] using h c (by simpa [Label.learn, hcall] using hc)
  | retry | cancel | giveUp | drop | release | expire | tick => exact h

theorem Recalls.skip (h : Recalls key keys keys') (away : label.stays key keys = false) :
    Recalls key (label.learn keys) keys' := by
  cases label with
  | lock call k options cancelled fresh =>
      have hkey : k ≠ key := by simpa [Label.stays, Label.key?] using away
      intro c hc
      by_cases hcall : c = call
      · have heq : k = key := by simpa [Label.learn, hcall] using hc
        exact absurd heq hkey
      · exact h c (by simpa [Label.learn, hcall] using hc)
  | retry | cancel | giveUp | drop | release | expire | tick => exact h

theorem Recalls.key?_eq (h : Recalls key keys keys') (stays : label.stays key keys = true) :
    label.key? keys' = label.key? keys := by
  cases label with
  | retry call | cancel call | giveUp call | drop call =>
      have hcall : keys call = some key := of_decide_eq_true stays
      exact (h call hcall).trans hcall.symm
  | lock | release | expire | tick => rfl

theorem key?_ne_of_away (away : label.stays key keys = false) : label.key? keys ≠ some key := by
  cases label with
  | tick => cases away
  | lock | retry | cancel | giveUp | drop | release | expire => exact of_decide_eq_false away

theorem away_of_key? {other : String} (hkey : label.key? keys = some other) (hne : other ≠ key) :
    label.stays key keys = false := by
  cases label with
  | tick => cases hkey
  | lock | retry | cancel | giveUp | drop | release | expire =>
      exact decide_eq_false fun h => hne (Option.some.inj (hkey.symm.trans h))

/-- All that a look at a key tells is about the key. -/
theorem attempt_key {w : Waiter τ} (hw : keys w.call = some w.key) (fresh : τ) :
    ∀ e ∈ (l.attempt w fresh).2, e.key? keys = some w.key := by
  unfold Locker.attempt
  split
  · simp [Event.key?]
  · split
    · simp [Event.key?, hw]
    · simp [Event.key?, hw]

theorem attempt_knows (h : Knows keys l) {w : Waiter τ} (hw : keys w.call = some w.key)
    (fresh : τ) : Knows keys (l.attempt w fresh).1 := by
  unfold Locker.attempt
  split
  · exact h
  · split
    · exact h
    · intro v hv
      rcases List.mem_append.mp hv with hv | hv
      · exact h v hv
      · obtain rfl := List.mem_singleton.mp hv
        exact hw

theorem Knows.forget (h : Knows keys l) (call : Nat) : Knows keys (l.forget call) :=
  fun w hw => h w (List.mem_of_mem_filter hw)

/-- A call whose number nobody waits with may be for any key. -/
theorem Knows.update (h : Knows keys l) {call : Nat} (new : l.waiter? call = none) (key : String) :
    Knows (Function.update keys call (some key)) l := by
  intro w hw
  rw [Function.update_of_ne (key_ne_of_find? new hw)]
  exact h w hw

end Learning

variable [DecidableEq τ]

section Step

variable {key : String} {keys keys' : Nat → Option String} {l m : Locker τ} {label : Label τ}
  {o : Locker τ × List (Event τ)}

theorem step_numbered (h : l.step label = some o) : label.Numbered l := by
  cases label with
  | lock => exact (lock_some h).1
  | retry | cancel | giveUp | drop | release | expire | tick => trivial

theorem step_knows (knows : Knows keys l) (h : l.step label = some o) :
    Knows (label.learn keys) o.1 := by
  cases label with
  | lock call k options cancelled fresh =>
      obtain ⟨new, rfl⟩ := lock_some h
      exact attempt_knows (knows.update new k) (Function.update_self call (some k) keys) fresh
  | retry call fresh =>
      obtain ⟨w, hw, -, rfl⟩ := retry_some h
      exact attempt_knows (knows.forget call) (knows w (waiter?_some hw).1) fresh
  | cancel | giveUp | drop | release | expire | tick =>
      -- No call begins to wait.
      cases step_acts h with
      | look w fresh drawn known => cases drawn
      | leave waiting fewer events quiet =>
          intro v hv
          obtain ⟨w, hw, heq⟩ := List.mem_map.mp (fewer.subset (List.mem_map_of_mem hv))
          obtain ⟨hcall, hkey, -⟩ : w.call = v.call ∧ w.key = v.key ∧ w.signal = v.signal := by
            simpa [Waiter.place] using heq
          rw [← hcall, ← hkey]
          exact knows w hw
      | remove | pass => exact knows

/-- All that a step tells is about the key that it is for. -/
theorem step_key (knows : Knows keys l) (h : l.step label = some o) :
    ∀ e ∈ o.2, e.key? (label.learn keys) = label.key? keys := by
  cases label with
  | lock call k options cancelled fresh =>
      obtain ⟨-, rfl⟩ := lock_some h
      exact attempt_key (Function.update_self call (some k) keys) fresh
  | retry call fresh =>
      obtain ⟨w, hw, -, rfl⟩ := retry_some h
      obtain ⟨hmem, rfl⟩ := waiter?_some hw
      intro e he
      exact (attempt_key (knows w hmem) fresh e he).trans (knows w hmem).symm
  | giveUp call =>
      obtain rfl := giveUp_some h
      simp [Event.key?, Label.key?, Label.learn]
  | release k token =>
      obtain rfl := Option.some.inj h
      rcases release_cases l k token with ⟨rest, -, heq⟩ | heq
      · simp [heq, Event.key?, Label.key?]
      · simp [heq, Event.key?, Label.key?]
  | expire k owner =>
      obtain ⟨t, -, -, -, rfl | ⟨-, rest, -, rfl⟩⟩ := expire_some h
      · simp
      · simp [Event.key?, Label.key?]
  | cancel call | drop call =>
      obtain rfl := Option.some.inj h
      simp
  | tick now =>
      obtain rfl := tick_some h
      simp

/-- A step tells of its key, and of no other. -/
theorem about_step (knows : Knows keys l) (h : l.step label = some o) (t : Nat) :
    about key keys [⟨label, t, o.2⟩] =
      if label.key? keys = some key then o.2.map (Prod.mk t) else [] := by
  simp only [about, List.append_nil]
  split
  · rename_i hkey
    rw [List.filter_eq_self.mpr]
    intro e he
    exact decide_eq_true ((step_key knows h e he).trans hkey)
  · rename_i hkey
    rw [List.filter_eq_nil_iff.mpr]
    · rfl
    · intro e he hown
      exact hkey ((step_key knows h e he).symm.trans (of_decide_eq_true hown))

end Step

section Timeline

variable {l m : Locker τ} {seen : List (Moment τ)}

theorem Timeline.knows (time : Timeline l seen) : Knows (learned noCalls seen) l := by
  induction time with
  | start => nofun
  | next time fresh hstep ih =>
      rw [learned_append]
      exact step_knows ih hstep

/-- The signal of a token that was granted for a key has fired once this record has been removed. -/
theorem Run.released_iff_removed {labels : List (Label τ)} {history : List (Event τ)}
    (run : Run l labels history) {call : Nat} {key : String} {token : τ}
    (h : .granted call key token ∈ history) :
    token ∈ l.released ↔ .removed key token ∈ history := by
  constructor
  · intro hreleased
    by_contra hnot
    obtain ⟨before, after, rfl⟩ := List.append_of_mem h
    have hafter : .removed key token ∉ after := fun hmem =>
      hnot (List.mem_append_right before (List.mem_cons_of_mem _ hmem))
    have hstands : Stands (before ++ .granted call key token :: after) key token :=
      ⟨before, call, after, rfl, hafter⟩
    exact run.owner_not_released ((run.recorded.mem_iff key token).mpr hstands) hreleased
  · intro hremoved
    rw [run.released_iff]
    exact ⟨key, hremoved⟩

/-- A run without the steps for other keys, beside the whole run. -/
structure Deletes (key : String) (l : Locker τ) (seen : List (Moment τ)) (m : Locker τ) : Prop where
  time : Timeline m (onKey key noCalls seen)
  slice : Slice key l m
  recalls : Recalls key (learned noCalls seen) (learned noCalls (onKey key noCalls seen))
  same : about key noCalls (onKey key noCalls seen) = about key noCalls seen

variable {key : String}

/-- What names the key happens in both runs or in neither. -/
theorem Deletes.told_iff (h : Deletes key l seen m) {e : Event τ}
    (hkey : ∀ keys, e.key? keys = some key) :
    e ∈ told (onKey key noCalls seen) ↔ e ∈ told seen := by
  rw [mem_told_iff hkey noCalls, h.same, mem_told_iff hkey noCalls]

theorem Deletes.signalled (h : Deletes key l seen m) (time : Timeline l seen) {call : Nat}
    {token : τ} (hgranted : .granted call key token ∈ told (onKey key noCalls seen)) :
    m.signalled token = l.signalled token := by
  -- Each run has fired the signal once it has told of the removal; both have told of it or none.
  have hwhole : .granted call key token ∈ told seen := (h.told_iff fun _ => rfl).mp hgranted
  rw [Bool.eq_iff_iff, signalled_iff, signalled_iff,
    h.time.run.released_iff_removed hgranted, time.run.released_iff_removed hwhole]
  exact h.told_iff fun _ => rfl

theorem Deletes.hears (h : Deletes key l seen m) (time : Timeline l seen) : Hears l m := by
  constructor
  · intro w hw
    obtain ⟨call, hcall⟩ := h.time.run.signal_granted w hw
    rw [(h.slice.mem_waiting.mp hw).2] at hcall
    exact h.signalled time hcall
  · intro t ht
    obtain ⟨call, hcall⟩ := h.time.run.timer_granted t ht
    rw [(h.slice.mem_timers.mp ht).2] at hcall
    exact h.signalled time hcall

/-- A step that stays is one of both runs, at the same time, and tells the same in both. -/
theorem Deletes.next_stays (h : Deletes key l seen m) (time : Timeline l seen) {label : Label τ}
    (fresh : Fresh label (told seen)) {o : Locker τ × List (Event τ)}
    (hstep : l.step label = some o) (stays : label.stays key (learned noCalls seen) = true) :
    ∃ n, Deletes key o.1 (seen ++ [⟨label, l.now, o.2⟩]) n := by
  have hboth := h.slice.step (h.hears time) time.knows stays (step_numbered hstep)
  rw [hstep] at hboth
  generalize hm : m.step label = p at hboth
  cases hboth with
  | @some _ p alike =>
      obtain ⟨n, events⟩ := p
      obtain rfl : events = o.2 := alike.events
      have hkept : onKey key noCalls (seen ++ [⟨label, l.now, o.2⟩]) =
          onKey key noCalls seen ++ [⟨label, m.now, o.2⟩] := by
        rw [onKey_append, h.slice.now]
        simp [onKey, stays]
      refine ⟨n, ?_, alike.slice, ?_, ?_⟩
      · rw [hkept]
        exact h.time.next (fresh_onKey fresh key noCalls) hm
      · rw [hkept, learned_append, learned_append]
        exact h.recalls.learn label
      · rw [hkept, about_append, about_append, h.same, h.slice.now,
          about_step h.time.knows hm, about_step time.knows hstep, h.recalls.key?_eq stays]

/-- A step for another key is none of the second run, and tells nothing about the key. -/
theorem Deletes.next_away (h : Deletes key l seen m) (time : Timeline l seen) {label : Label τ}
    {o : Locker τ × List (Event τ)} (hstep : l.step label = some o)
    (away : label.stays key (learned noCalls seen) = false) :
    Deletes key o.1 (seen ++ [⟨label, l.now, o.2⟩]) m := by
  have hkept : onKey key noCalls (seen ++ [⟨label, l.now, o.2⟩]) = onKey key noCalls seen := by
    rw [onKey_append]
    simp [onKey, away]
  refine ⟨?_, h.slice.skip time.knows away hstep, ?_, ?_⟩
  · rw [hkept]
    exact h.time
  · rw [hkept, learned_append]
    exact h.recalls.skip away
  · rw [hkept, about_append, h.same, about_step time.knows hstep,
      if_neg (key?_ne_of_away away), List.append_nil]

theorem Timeline.deletes (time : Timeline l seen) (key : String) : ∃ m, Deletes key l seen m := by
  induction time with
  | start =>
      exact ⟨{}, .start, ⟨rfl, rfl, rfl, rfl⟩, fun _ h => h, rfl⟩
  | @next l m seen events label time fresh hstep ih =>
      -- A step for the key, and a tick, is taken in both runs; any other leaves the second.
      obtain ⟨n, h⟩ := ih
      cases hlabel : label.stays key (learned noCalls seen) with
      | true => exact h.next_stays time fresh hstep hlabel
      | false => exact ⟨n, h.next_away time hstep hlabel⟩

/-- A step for one key leaves the holder of another one alone, and takes no record of it away. -/
theorem Timeline.step_other (time : Timeline l seen) {label : Label τ}
    {o : Locker τ × List (Event τ)} (hstep : l.step label = some o) {other : String}
    (hkey : label.key? (learned noCalls seen) = some other) (hne : other ≠ key) :
    o.1.holder? key = l.holder? key ∧ ∀ token, .removed key token ∉ o.2 := by
  have away := away_of_key? hkey hne
  obtain ⟨m, h⟩ := time.deletes key
  have hafter := h.next_away time hstep away
  constructor
  · rw [← hafter.slice.holder?, h.slice.holder?]
  · intro token hmem
    exact key?_ne_of_away away (step_key time.knows hstep _ hmem).symm

/-- A call waits for a token of its own key, which was never granted for another. -/
theorem Timeline.signal_own (time : Timeline l seen) {w : Waiter τ} (hw : w ∈ l.waiting)
    (hne : w.key ≠ key) (call : Nat) : .granted call key w.signal ∉ told seen := by
  intro hother
  obtain ⟨first, hfirst⟩ := time.run.signal_granted w hw
  have hsame := eq_of_filterMap_nodup time.run.granted_nodup hfirst hother rfl rfl
  exact hne (Event.granted.inj hsame).2.1

end Timeline

theorem userFileKey_injective : Function.Injective userFileKey := by
  intro u v h
  have hdigits : Nat.toDigits 10 u.toNat = Nat.toDigits 10 v.toNat := by
    have hchars := congrArg String.toList h
    simpa [userFileKey] using hchars
  apply UInt64.toNat_inj.mp
  calc
    u.toNat = Nat.ofDigitChars 10 (Nat.toDigits 10 u.toNat) 0 :=
      Nat.ofDigitChars_ten_toDigits.symm
    _ = Nat.ofDigitChars 10 (Nat.toDigits 10 v.toNat) 0 := by rw [hdigits]
    _ = v.toNat := Nat.ofDigitChars_ten_toDigits

/-- Keys do not interact. Delete the calls and timers of all other keys from a run, and a run is
left: each of its steps can be taken, at the time at which it was taken, and tells what it told, so
that all that is told of the key is told as before. It ends with the same record of the key, the
same calls waiting for it and the same timers, and the next step for the key does the same in both.
The keys of users differ. So a call for one user waits for no token of another, and no step for one
user grants or takes away the lock of another. -/
theorem keys_do_not_interact {l : Locker τ} {seen : List (Moment τ)} (time : Timeline l seen) :
    (∀ key, ∃ m, Timeline m (onKey key noCalls seen) ∧
      about key noCalls (onKey key noCalls seen) = about key noCalls seen ∧
      m.now = l.now ∧ m.isLocked key = l.isLocked key ∧ m.holder? key = l.holder? key ∧
      m.waiting = l.waiting.filter (fun w => w.key = key) ∧
      m.timers = l.timers.filter (fun t => t.key = key) ∧
      ∀ label : Label τ, label.stays key (learned noCalls seen) = true → label.Numbered l →
        (m.step label).map Prod.snd = (l.step label).map Prod.snd) ∧
    Function.Injective userFileKey ∧
    ∀ u v : UInt64, u ≠ v →
      (∀ w ∈ l.waiting, w.key = userFileKey u → ∀ call,
        .granted call (userFileKey v) w.signal ∉ told seen) ∧
      ∀ label m events, label.key? (learned noCalls seen) = some (userFileKey u) →
        l.step label = some (m, events) →
        m.holder? (userFileKey v) = l.holder? (userFileKey v) ∧
        ∀ token, .removed (userFileKey v) token ∉ events := by
  refine ⟨?_, userFileKey_injective, ?_⟩
  · intro key
    obtain ⟨m, h⟩ := time.deletes key
    refine ⟨m, h.time, h.same, h.slice.now, ?_, h.slice.holder?, h.slice.waiting, h.slice.timers,
      ?_⟩
    · rw [Locker.isLocked, h.slice.holder?, Locker.isLocked]
    · intro label stays numbered
      have hboth := h.slice.step (h.hears time) time.knows stays numbered
      generalize l.step label = o, m.step label = p at hboth
      cases hboth with
      | some alike => exact congrArg some alike.events
      | none => rfl
  · intro u v huv
    have hne : userFileKey u ≠ userFileKey v := fun h => huv (userFileKey_injective h)
    constructor
    · intro w hw hkey call
      exact time.signal_own hw (hkey ▸ hne) call
    · intro label m events hkey hstep
      exact time.step_other hstep hkey hne

/-- Two users' keys are held and waited for. A release names the token of the other user, one lock
runs out and is granted again, and the number of a call that has ended is used for the other key. -/
def twoUsersSteps : List (Label Nat) :=
  [.lock 0 "user-1-file" { expiration := some ⟨4, by decide⟩ } false 10,
    .lock 1 "user-2-file" {} false 11, .lock 2 "user-1-file" {} false 12,
    .lock 3 "user-2-file" {} false 13, .release "user-1-file" 11, .tick 7,
    .expire "user-1-file" 10, .retry 2 14, .lock 2 "user-2-file" {} false 15, .cancel 3,
    .giveUp 3]

theorem keys_do_not_interact_two_users :
    ∃ (l m : Locker Nat) (seen : List (Moment Nat)), Timeline l seen ∧
      seen.map Moment.label = twoUsersSteps ∧
      Timeline m (onKey "user-1-file" noCalls seen) ∧
      (onKey "user-1-file" noCalls seen).map Moment.label =
        [.lock 0 "user-1-file" { expiration := some ⟨4, by decide⟩ } false 10,
          .lock 2 "user-1-file" {} false 12, .release "user-1-file" 11, .tick 7,
          .expire "user-1-file" 10, .retry 2 14] ∧
      about "user-1-file" noCalls seen =
        [(0, .granted 0 "user-1-file" 10), (0, .waits 2 10), (0, .refused "user-1-file" 11),
          (7, .removed "user-1-file" 10), (7, .granted 2 "user-1-file" 14)] ∧
      about "user-1-file" noCalls (onKey "user-1-file" noCalls seen) =
        about "user-1-file" noCalls seen ∧
      m.holder? "user-1-file" = l.holder? "user-1-file" ∧ l.holder? "user-1-file" = some 14 := by
  have time : Timeline _ _ := Timeline.start.chronicle twoUsersSteps rfl
  obtain ⟨m, hm, hsame, -, -, hholder, -⟩ := (keys_do_not_interact time).1 "user-1-file"
  exact ⟨_, m, _, time, by decide, hm, by decide, by decide, hsame, hholder, by decide⟩

end Coordination.Lock
