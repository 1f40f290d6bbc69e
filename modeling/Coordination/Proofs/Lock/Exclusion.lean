import Coordination.Proofs.Lock.Records

/-!
Mutual exclusion. Between two grants of a key the first holder's record is removed, which only a
release with that holder's token does, or that holder's own timer when it is due. Old timers that
run late and tokens of former holders change nothing. The assumption is that no token is drawn
twice.
-/

namespace Coordination.Lock

variable {τ : Type}

def lastGrant (key : String) (history : List (Event τ)) : Option τ :=
  (history.filterMap fun
    | .granted _ k token => if k = key then some token else none
    | _ => none).getLast?

theorem Run.holder?_iff [DecidableEq τ] {l : Locker τ} {labels : List (Label τ)}
    {history : List (Event τ)} (run : Run l labels history) (key : String) (token : τ) :
    l.holder? key = some token ↔ Stands history key token := by
  obtain ⟨hnodup, hmem⟩ := run.recorded
  rw [holder?_eq_some hnodup, hmem]

/-- A key that is granted again has been given back. -/
theorem Run.removed_between [DecidableEq τ] {l : Locker τ} {labels : List (Label τ)}
    {history before between after : List (Event τ)} {first second : Nat} {key : String} {t u : τ}
    (run : Run l labels history)
    (h : history = before ++ .granted first key t :: between ++ .granted second key u :: after) :
    .removed key t ∈ between := by
  obtain ⟨q, done, label, rest, records, hrun, -, hchanges⟩ := run.origin h (by simp [Event.Quiet])
  by_contra hnot
  have hstands : Stands (before ++ .granted first key t :: between) key t :=
    ⟨before, first, between, rfl, hnot⟩
  have hheld := (hrun.holder?_iff key t).mpr hstands
  cases hchanges with
  | take _ _ _ free drawn =>
      rw [free] at hheld
      cases hheld
  | keep _ quiet => exact quiet _ List.mem_cons_self

/-- The grant that stands is the last one of its key. -/
theorem Run.lastGrant_eq [DecidableEq τ] {l : Locker τ} {labels : List (Label τ)}
    {history : List (Event τ)} (run : Run l labels history) {key : String} {t : τ}
    (h : Stands history key t) : lastGrant key history = some t := by
  obtain ⟨before, call, after, hhistory, hnot⟩ := h
  have hnone : (after.filterMap fun
      | .granted _ k token => if k = key then some token else none
      | _ => none) = ([] : List τ) := by
    rw [List.filterMap_eq_nil_iff]
    intro e he
    cases e with
    | granted second k u =>
        have hkey : k ≠ key := by
          rintro rfl
          obtain ⟨between, rest, hafter⟩ := List.append_of_mem he
          have hsplit : history =
              before ++ .granted call k t :: between ++ .granted second k u :: rest := by
            rw [hhistory, hafter, List.append_assoc, List.cons_append]
          apply hnot
          rw [hafter]
          exact List.mem_append_left _ (run.removed_between hsplit)
        simp [hkey]
    | failed | waits | removed | refused => rfl
  rw [lastGrant, hhistory, List.filterMap_append, List.filterMap_cons]
  simp [hnone]

/-- At most one caller holds a key. Whatever is done in whatever order, as long as no token is
drawn twice: after a grant the key is held with its token until the record is removed; it is not
granted again before that; only a release with this token or the timer of this token removes the
record, and timers are those of granted tokens; and there is at most one record for each key, with
the token of the key's last grant. -/
theorem mutual_exclusion [DecidableEq τ] {l : Locker τ} {labels : List (Label τ)}
    {history : List (Event τ)} (run : Run l labels history) :
    (∀ before first key t after, history = before ++ .granted first key t :: after →
      (.removed key t ∉ after → l.holder? key = some t) ∧
      ∀ between second u rest, after = between ++ .granted second key u :: rest →
        .removed key t ∈ between) ∧
    (∀ before key t after, history = before ++ .removed key t :: after →
      ∃ q done label rest, Run q done before ∧ labels = done ++ label :: rest ∧
        q.holder? key = some t ∧ Frees q label key t) ∧
    (granted history).Nodup ∧
    (∀ timer ∈ l.timers, ∃ call, .granted call timer.key timer.owner ∈ history) ∧
    (l.records.map Prod.fst).Nodup ∧
    (∀ key t, (key, t) ∈ l.records → lastGrant key history = some t) := by
  refine ⟨?_, ?_, run.granted_nodup, run.timer_granted, run.recorded.keys_nodup, ?_⟩
  · intro before first key t after h
    constructor
    · intro hnot
      exact (run.holder?_iff key t).mpr ⟨before, first, after, h, hnot⟩
    · intro between second u rest hafter
      have hsplit : history =
          before ++ .granted first key t :: between ++ .granted second key u :: rest := by
        rw [h, hafter, List.append_assoc, List.cons_append]
      exact run.removed_between hsplit
  · intro before key t after h
    obtain ⟨q, done, label, rest, records, hrun, hlabels, hchanges⟩ :=
      run.origin h (by simp [Event.Quiet])
    cases hchanges with
    | free _ _ held frees => exact ⟨q, done, label, rest, hrun, hlabels, held, frees⟩
    | keep _ quiet => exact (quiet _ List.mem_cons_self).elim
  · intro key t hmem
    exact run.lastGrant_eq ((run.recorded.mem_iff key t).mp hmem)

/-- Two callers race for a key whose holder's time is up; a third wait ends by a release, and the
token of the first holder is refused. -/
def raceSteps : List (Label Nat) :=
  [.lock 0 "a" { expiration := some ⟨1, by decide⟩ } false 10, .lock 1 "a" {} false 11,
    .lock 2 "a" {} false 12, .lock 3 "b" {} false 13, .tick 5, .expire "a" 10, .retry 2 14,
    .retry 1 15, .release "a" 10, .release "a" 14, .retry 1 16]

theorem mutual_exclusion_race : ∃ (l : Locker Nat) (history : List (Event Nat)),
    Run l raceSteps history ∧
    history = [.granted 0 "a" 10, .waits 1 10, .waits 2 10, .granted 3 "b" 13, .removed "a" 10,
      .granted 2 "a" 14, .waits 1 14, .refused "a" 10, .removed "a" 14, .granted 1 "a" 16] ∧
    l.records = [("a", 16), ("b", 13)] ∧
    (∀ key t, (key, t) ∈ l.records → lastGrant key history = some t) := by
  have run : Run _ ([] ++ raceSteps) _ := Run.start.replay rfl
  exact ⟨_, _, run, by decide, by decide, (mutual_exclusion run).2.2.2.2.2⟩

end Coordination.Lock
