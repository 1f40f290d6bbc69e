import Mathlib.Data.List.Induction
import Mathlib.Data.List.TakeWhile
import Coordination.Proofs.Lock.Attempts

/-!
Runs without a call that came to nothing. A call that is never granted its key changes nothing but
the list of those who wait. So its steps can be deleted from a run, and what is left is a run: its
steps can be taken at the same times, tell the same, and come to the same locks, signals and timers.
-/

namespace Coordination.Lock

variable {τ : Type}

def reused (call : Nat) (seen : List (Moment τ)) : Bool := seen.any fun x => x.label.opens call

/-- The moments until the number is used for a new call. -/
def lifetime (call : Nat) (seen : List (Moment τ)) : List (Moment τ) :=
  seen.takeWhile fun x => !x.label.opens call

/-- The moments that are left when a call is deleted. Where its number is used again, that is
another call. -/
def without (call : Nat) : List (Moment τ) → List (Moment τ)
  | [] => []
  | x :: seen =>
    if x.label.opens call then x :: seen
    else if x.label.call? = some call then without call seen
    else x :: without call seen

section Deleting

variable {call : Nat} {seen : List (Moment τ)}

theorem told_append (seen more : List (Moment τ)) : told (seen ++ more) = told seen ++ told more :=
  List.flatMap_append

theorem opens_lock {label : Label τ} (h : label.opens call = true) :
    ∃ key options cancelled fresh, label = .lock call key options cancelled fresh := by
  cases label with
  | lock new key options cancelled fresh =>
      obtain rfl := of_decide_eq_true h
      exact ⟨key, options, cancelled, fresh, rfl⟩
  | retry | cancel | giveUp | drop | release | expire | tick => cases h

theorem call?_of_opens {label : Label τ} (h : label.opens call = true) :
    label.call? = some call := by
  obtain ⟨key, options, cancelled, fresh, rfl⟩ := opens_lock h
  rfl

theorem reused_eq_false_iff :
    reused call seen = false ↔ ∀ x ∈ seen, x.label.opens call = false := by
  simp [reused]

/-- As long as the number is not used again, all moments are of the lifetime of the call. -/
theorem lifetime_eq (old : reused call seen = false) : lifetime call seen = seen := by
  rw [lifetime, List.takeWhile_eq_self_iff]
  intro x hx
  simpa using reused_eq_false_iff.mp old x hx

theorem reused_lifetime (call : Nat) (seen : List (Moment τ)) :
    reused call (lifetime call seen) = false := by
  rw [reused_eq_false_iff]
  intro x hx
  simpa using List.mem_takeWhile_imp hx

theorem reused_append (call : Nat) (seen more : List (Moment τ)) :
    reused call (seen ++ more) = (reused call seen || reused call more) := List.any_append

theorem lifetime_append (old : reused call seen = false) (more : List (Moment τ)) :
    lifetime call (seen ++ more) = seen ++ lifetime call more := by
  apply List.takeWhile_append_of_pos
  intro x hx
  simpa using reused_eq_false_iff.mp old x hx

theorem lifetime_append_sublist (call : Nat) (seen more : List (Moment τ)) :
    (lifetime call seen).Sublist (lifetime call (seen ++ more)) := by
  rw [lifetime, lifetime, List.takeWhile_append]
  split
  · rename_i hall
    rw [(List.takeWhile_sublist _).eq_of_length hall]
    exact List.sublist_append_left ..
  · exact List.Sublist.refl _

theorem without_sublist (seen : List (Moment τ)) : (without call seen).Sublist seen := by
  induction seen with
  | nil => exact List.Sublist.slnil
  | cons x seen ih =>
      unfold without
      split
      · exact List.Sublist.refl _
      · split
        · exact ih.cons x
        · exact ih.cons_cons x

/-- What comes after the number is used again is left as it is. -/
theorem without_append_of_reused (h : reused call seen = true) (more : List (Moment τ)) :
    without call (seen ++ more) = without call seen ++ more := by
  induction seen with
  | nil => cases h
  | cons x seen ih =>
      simp only [List.cons_append, without]
      split
      · rfl
      · rename_i old
        have hlater : reused call seen = true := by simpa [reused, old] using h
        split
        · exact ih hlater
        · rw [ih hlater, List.cons_append]

/-- Until the number is used again, the steps of the call are left out. -/
theorem without_append (old : reused call seen = false) (more : List (Moment τ)) :
    without call (seen ++ more) = without call seen ++ without call more := by
  induction seen with
  | nil => rfl
  | cons x seen ih =>
      have hnow : x.label.opens call = false :=
        reused_eq_false_iff.mp old x List.mem_cons_self
      have hlater : reused call seen = false :=
        reused_eq_false_iff.mpr fun y hy => reused_eq_false_iff.mp old y (List.mem_cons_of_mem x hy)
      simp only [List.cons_append, without, hnow, ih hlater]
      split
      · rename_i h
        cases h
      · split
        · rfl
        · rw [List.cons_append]

end Deleting

section Timeline

variable [DecidableEq τ] {l m n : Locker τ} {before after seen : List (Moment τ)} {x y : Moment τ}
  {call : Nat}

/-- The last step of a timeline. -/
theorem Timeline.last (time : Timeline m (seen ++ [y])) :
    ∃ l, Timeline l seen ∧ Fresh y.label (told seen) ∧ l.step y.label = some (m, y.events) ∧
      y.time = l.now := by
  generalize h : seen ++ [y] = full at time
  cases time with
  | start => simp at h
  | next time fresh hstep =>
      obtain ⟨rfl, hlast⟩ := List.append_inj' h rfl
      obtain rfl := List.singleton_inj.mp hlast
      exact ⟨_, time, fresh, hstep, rfl⟩

/-- The moments say what a service has come to. -/
theorem Timeline.unique (time : Timeline m seen) (again : Timeline n seen) : m = n := by
  induction time generalizing n with
  | start =>
      generalize h : ([] : List (Moment τ)) = seen at again
      cases again with
      | start => rfl
      | next => simp at h
  | next time fresh hstep ih =>
      obtain ⟨l, hl, -, hagain, -⟩ := again.last
      obtain rfl := ih hl
      exact congrArg Prod.fst (Option.some.inj (hstep.symm.trans hagain))

/-- A timeline can be taken up again at each of its moments. -/
theorem Timeline.split (time : Timeline n (before ++ after)) :
    ∃ l, Timeline l before ∧
      l.replay (told before) (after.map Moment.label) = some (n, told before ++ told after) := by
  induction after generalizing before with
  | nil => exact ⟨n, by simpa using time, by simp [Locker.replay, told]⟩
  | cons y after ih =>
      rw [← List.singleton_append, ← List.append_assoc] at time
      obtain ⟨m, hm, hrest⟩ := ih time
      obtain ⟨l, hl, fresh, hstep, -⟩ := hm.last
      have hsame : told before ++ y.events = told (before ++ [y]) := by simp [told]
      refine ⟨l, hl, ?_⟩
      simp only [List.map_cons, Locker.replay, fresh, hstep, if_true, hsame, hrest]
      rw [← told_append, ← told_append, List.append_assoc, List.singleton_append]

theorem waiter?_of_opens {label : Label τ} {o : Locker τ × List (Event τ)}
    (h : l.step label = some o) (new : label.opens call = true) : l.waiter? call = none := by
  obtain ⟨key, options, cancelled, fresh, rfl⟩ := opens_lock new
  exact (lock_some h).1

/-- A moment is added to a timeline. -/
theorem Timeline.push (time : Timeline l seen) (fresh : Fresh y.label (told seen))
    (hstep : l.step y.label = some (m, y.events)) (hnow : y.time = l.now) :
    Timeline m (seen ++ [y]) := by
  have hnext := time.next fresh hstep
  rwa [← hnow] at hnext

/-- A call that is never granted its key is deleted from a run: the others are told the same at the
same times. Until its number is used again, the service only lacks the call among those who wait. -/
theorem Timeline.delete (time : Timeline n (before ++ x :: after)) (new : x.label.opens call = true)
    (vain : ∀ key token, .granted call key token ∉ told (x :: lifetime call after)) :
    Timeline (if reused call after then n else n.forget call)
      (before ++ without call after) := by
  induction after using List.reverseRecOn generalizing n with
  | nil =>
      obtain ⟨l, hl, -, hstep, -⟩ := time.last
      have hvain := step_vain hstep (call?_of_opens new) (by simpa [told, lifetime] using vain)
      rw [forget_eq (waiter?_of_opens hstep new)] at hvain
      simpa [reused, without, hvain] using hl
  | append_singleton after y ih =>
      rw [← List.cons_append, ← List.append_assoc] at time
      obtain ⟨l, hl, fresh, hstep, hnow⟩ := time.last
      have hbefore := ih hl fun key token hgranted =>
        vain key token ((told_sublist ((lifetime_append_sublist call after [y]).cons_cons x)).subset
          hgranted)
      have hfresh : Fresh y.label (told (before ++ without call after)) :=
        fresh_sublist fresh (((without_sublist after).cons x).append_left before)
      rw [reused_append]
      cases hold : reused call after with
      | true =>
          -- Another call has the number by now, and nothing is left out any more.
          rw [hold, if_pos rfl] at hbefore
          rw [without_append_of_reused hold, ← List.append_assoc, Bool.true_or, if_pos rfl]
          exact hbefore.push hfresh hstep hnow
      | false =>
          rw [hold, if_neg Bool.false_ne_true] at hbefore
          rw [without_append hold, Bool.false_or]
          by_cases hopens : y.label.opens call = true
          · rw [forget_eq (waiter?_of_opens hstep hopens)] at hbefore
            simp only [reused, List.any_cons, hopens, without, if_true,
              Bool.true_or, ← List.append_assoc]
            exact hbefore.push hfresh hstep hnow
          · have hreused : reused call [y] = false := by simpa [reused] using hopens
            rw [hreused, if_neg Bool.false_ne_true]
            by_cases hown : y.label.call? = some call
            · have hvain : n.forget call = l.forget call := by
                refine step_vain hstep hown fun key token hgranted => vain key token ?_
                rw [lifetime_append hold, lifetime_eq hreused]
                simp [told, hgranted]
              simpa [without, hopens, hown, hvain] using hbefore
            · have hsame : (l.forget call).step y.label = some (n.forget call, y.events) := by
                rw [step_forget l hown, hstep]
                rfl
              simp only [without, hopens, hown, if_false, ← List.append_assoc]
              exact hbefore.push hfresh hsame hnow

end Timeline

section Vain

variable {call : Nat} {key : String} {options : Options} {found : List (Option τ)}
  {events : List (Event τ)} {left : Option (Waiter τ)}

theorem mem_toldTo {e : Event τ} (h : e.call? = some call) :
    e ∈ toldTo call events ↔ e ∈ events := by simp [toldTo, h]

/-- A call that fails is never granted its key, and waits no more. -/
theorem Course.failed_vain (h : Course call key options 0 found events left) {error : Error}
    (failed : .failed call error ∈ events) :
    (∀ key token, .granted call key token ∉ events) ∧ left = none := by
  obtain ⟨holders, lastFound, lastTold, -, rfl, -, ending⟩ := h.shape
  cases ending with
  | waiting | dropped | granted => simp at failed
  | cancelled | failed => simp

/-- A call that waits has not been granted its key. -/
theorem Course.waiting_vain {w : Waiter τ} (h : Course call key options 0 found events (some w)) :
    ∀ key token, .granted call key token ∉ events := by
  obtain ⟨holders, lastFound, lastTold, -, rfl, -, ending⟩ := h.shape
  cases ending with
  | waiting => simp

variable [DecidableEq τ] {l m n : Locker τ} {before after own : List (Moment τ)} {x y : Moment τ}

/-- A call ends without its key: it fails, or its caller goes away while it waits. -/
inductive EndsInVain (call : Nat) (before own : List (Moment τ)) : Prop where
  | failed (error : Error) (fails : .failed call error ∈ told own)
  | dropped (mid rest : List (Moment τ)) (y : Moment τ) (l : Locker τ)
    (goes : own = mid ++ y :: rest) (drops : y.label = .drop call)
    (time : Timeline l (before ++ mid)) (waits : (l.waiter? call).isSome = true)

/-- A new call takes its course from its first moment on. -/
theorem Timeline.course (time : Timeline n (before ++ x :: own)) (new : x.label.opens call = true)
    (old : reused call own = false) :
    ∃ key options found,
      Course call key options 0 found (toldTo call (told (x :: own))) (n.waiter? call) := by
  obtain ⟨l, -, hreplay⟩ := time.split
  obtain ⟨key, options, cancelled, fresh, hlabel⟩ := opens_lock new
  rw [List.map_cons, hlabel] at hreplay
  refine ⟨key, options, _, replay_lock hreplay ?_⟩
  simpa using reused_eq_false_iff.mp old

/-- After its caller went away, a call is told nothing and waits no more. -/
theorem Timeline.dropped (time : Timeline n (before ++ y :: own)) (drops : y.label = .drop call)
    (old : reused call own = false) :
    toldTo call (told (y :: own)) = [] ∧ n.waiter? call = none := by
  obtain ⟨l, -, hreplay⟩ := time.split
  rw [List.map_cons, drops] at hreplay
  obtain ⟨o, hstep, hrest⟩ := replay_step hreplay
  obtain rfl := Option.some.inj hstep
  obtain ⟨later, hlater, hfollows⟩ :=
    replay_follows hrest (by simpa using reused_eq_false_iff.mp old) ""
  obtain ⟨-, rfl, hgone⟩ := hfollows.gone (waiter?_forget l call)
  refine ⟨?_, hgone⟩
  simpa [toldTo_append] using hlater

/-- A call that ends without its key has never been granted it, and waits no more. -/
theorem EndsInVain.over (vain : EndsInVain call before (x :: own))
    (time : Timeline n (before ++ x :: own)) (new : x.label.opens call = true)
    (old : reused call own = false) :
    (∀ key token, .granted call key token ∉ told (x :: own)) ∧ n.waiter? call = none := by
  have hgranted (key : String) (token : τ) (seen : List (Moment τ)) :
      .granted call key token ∈ told seen ↔ .granted call key token ∈ toldTo call (told seen) :=
    (mem_toldTo rfl).symm
  simp only [hgranted]
  obtain ⟨key, options, found, hcourse⟩ := time.course new old
  cases vain with
  | failed error fails => exact hcourse.failed_vain ((mem_toldTo rfl).mpr fails)
  | dropped mid rest y l goes drops htime waits =>
      cases mid with
      | nil =>
          obtain ⟨rfl, -⟩ := List.cons.inj goes
          rw [drops] at new
          cases new
      | cons z mid =>
          rw [List.cons_append] at goes
          obtain ⟨rfl, rfl⟩ := List.cons.inj goes
          have hold := reused_eq_false_iff.mp old
          have hmid : reused call mid = false :=
            reused_eq_false_iff.mpr fun z hz => hold z (List.mem_append_left _ hz)
          have hrest : reused call rest = false :=
            reused_eq_false_iff.mpr fun z hz =>
              hold z (List.mem_append_right _ (List.mem_cons_of_mem y hz))
          obtain ⟨w, hw⟩ := Option.isSome_iff_exists.mp waits
          obtain ⟨_, _, _, hbefore⟩ := htime.course new hmid
          rw [hw] at hbefore
          rw [← List.cons_append, ← List.append_assoc] at time
          obtain ⟨hnothing, hgone⟩ := time.dropped drops hrest
          refine ⟨?_, hgone⟩
          rw [← List.cons_append, told_append, toldTo_append, hnothing, List.append_nil]
          exact hbefore.waiting_vain

/-- A call that ends without its key leaves no trace, whatever was done in between by others.
Without its steps, the same is told to all others at the same times, and the service comes to the
same state. It has the same locks, signals and timers at each moment on the way, and the others have
the same choice of steps. The steps of the call have neither made nor removed a lock, nor fired a
signal, and told nothing to others. -/
theorem vain_call_leaves_no_trace (time : Timeline n (before ++ x :: after))
    (new : x.label.opens call = true)
    (vain : EndsInVain call before (x :: lifetime call after)) :
    Timeline n (before ++ without call after) ∧
    (∀ mid rest l, after = mid ++ rest → Timeline l (before ++ x :: mid) →
      ∃ m, Timeline m (before ++ without call mid) ∧
        m.records = l.records ∧ m.released = l.released ∧ m.timers = l.timers ∧ m.now = l.now ∧
        (m = l ∨ m = l.forget call) ∧
        ∀ label, label.call? ≠ some call →
          (m.step label).map Prod.snd = (l.step label).map Prod.snd) ∧
    (∀ mid y rest l m, x :: lifetime call after = mid ++ y :: rest → y.label.call? = some call →
      Timeline l (before ++ mid) → Timeline m (before ++ mid ++ [y]) →
      m.records = l.records ∧ m.released = l.released ∧ m.timers = l.timers ∧
      ∀ e ∈ y.events, e.call? = some call ∧ ∀ key token, e ≠ .granted call key token) := by
  have hall : x :: after =
      (x :: lifetime call after) ++ after.dropWhile fun z => !z.label.opens call := by
    rw [List.cons_append, lifetime, List.takeWhile_append_dropWhile]
  have hown := time
  rw [hall, ← List.append_assoc] at hown
  obtain ⟨k, hk, -⟩ := hown.split
  obtain ⟨hnever, hgone⟩ := vain.over hk new (reused_lifetime call after)
  refine ⟨?_, ?_, ?_⟩
  · have hdelete := time.delete new hnever
    cases hold : reused call after with
    | true => rwa [hold, if_pos rfl] at hdelete
    | false =>
        rw [lifetime_eq hold] at hk
        obtain rfl := hk.unique time
        rwa [hold, if_neg Bool.false_ne_true, forget_eq hgone] at hdelete
  · rintro mid rest l rfl hl
    have hdelete := hl.delete new fun key token hgranted =>
      hnever key token
        ((told_sublist ((lifetime_append_sublist call mid rest).cons_cons x)).subset hgranted)
    split at hdelete
    · exact ⟨l, hdelete, rfl, rfl, rfl, rfl, .inl rfl, fun _ _ => rfl⟩
    · refine ⟨_, hdelete, rfl, rfl, rfl, rfl, .inr rfl, fun label hother => ?_⟩
      rw [step_forget l hother, Option.map_map]
      rfl
  · intro mid y rest l m hsplit hmine hl hm
    obtain ⟨k, hk, -, hstep, -⟩ := hm.last
    obtain rfl := hk.unique hl
    have hquiet : ∀ key token, .granted call key token ∉ y.events := by
      intro key token hgranted
      refine hnever key token ?_
      rw [hsplit]
      simp [told, hgranted]
    have hsame : m.forget call = k.forget call := step_vain hstep hmine hquiet
    refine ⟨(congrArg Locker.records hsame :), (congrArg Locker.released hsame :),
      (congrArg Locker.timers hsame :), fun e he => ⟨(step_call hstep he).trans hmine, ?_⟩⟩
    rintro key token rfl
    exact hquiet key token he

/-- A call is woken, and its caller goes away before it looks again. Who waits behind it gets the
key, and its number goes to another call. -/
theorem vain_call_dropped : ∃ (n : Locker Nat) (before after : List (Moment Nat)) (x : Moment Nat),
    Timeline n (before ++ x :: after) ∧ x.label.opens 1 = true ∧
    EndsInVain 1 before (x :: lifetime 1 after) ∧ Timeline n (before ++ without 1 after) ∧
    (before ++ without 1 after).map Moment.label =
      [.lock 0 "a" {} false 10, .lock 2 "a" {} false 12, .release "a" 10, .retry 2 13,
        .lock 1 "b" {} false 14] := by
  let before : List (Moment Nat) := [⟨.lock 0 "a" {} false 10, 0, [.granted 0 "a" 10]⟩]
  let x : Moment Nat := ⟨.lock 1 "a" {} false 11, 0, [.waits 1 10]⟩
  let mid : List (Moment Nat) :=
    [⟨.lock 2 "a" {} false 12, 0, [.waits 2 10]⟩, ⟨.release "a" 10, 0, [.removed "a" 10]⟩]
  let drop : Moment Nat := ⟨.drop 1, 0, []⟩
  let rest : List (Moment Nat) := [⟨.retry 2 13, 0, [.granted 2 "a" 13]⟩]
  let after := mid ++ drop :: rest ++ [⟨.lock 1 "b" {} false 14, 0, [.granted 1 "b" 14]⟩]
  have there : Timeline _ (before ++ x :: mid) :=
    Timeline.start.chronicle ((before ++ x :: mid).map Moment.label) rfl
  have time : Timeline _ (before ++ x :: after) :=
    Timeline.start.chronicle ((before ++ x :: after).map Moment.label) rfl
  have vain : EndsInVain 1 before (x :: lifetime 1 after) :=
    .dropped (x :: mid) rest drop _ (by decide) rfl there (by decide)
  obtain ⟨hsame, -⟩ := vain_call_leaves_no_trace time (by decide) vain
  exact ⟨_, before, after, x, time, by decide, vain, hsame, by decide⟩

end Vain

end Coordination.Lock
