import Coordination.Proofs.Pool.Rounds

/-!
Last calls. A worker that makes its last call is inside it until it goes, and its number is given to
nobody else; so among the calls of one worker only the last one is called its last.
-/

namespace Coordination.Pool

variable {α : Type}

/-- If the event is a call of this worker, whether it is its last. -/
def Event.lastOf (id : Nat) : Event α → Option Bool
  | .called worker _ last => if worker = id then some last else none
  | _ => none

/-- The calls of a worker, each with whether it is its last. -/
def lastsOf (id : Nat) (history : List (Nat × Event α)) : List Bool :=
  history.filterMap fun h => h.2.lastOf id

theorem lastsOf_append (id : Nat) (before after : List (Nat × Event α)) :
    lastsOf id (before ++ after) = lastsOf id before ++ lastsOf id after := List.filterMap_append

theorem lastsOf_stamp (id now : Nat) (events : List (Event α)) :
    lastsOf id (stamp now events) = events.filterMap (Event.lastOf id) := by
  rw [lastsOf, stamp, List.filterMap_map]
  rfl

/-- The number was given to a worker that has gone, or is in its last call. -/
structure Parted (p : Pool α) (id : Nat) : Prop where
  given : id < p.hired
  leaves : ∀ w ∈ p.workers, w.id = id → w.Leaving

/-- What a step tells of the calls of one worker: nothing of one that has parted, and of another one
call at most, after which it has parted if that is its last. -/
structure Tells (p : Pool α) (id : Nat) (o : Outcome α) : Prop where
  parted : Parted p id → Parted o.1 id ∧ o.2.filterMap (Event.lastOf id) = []
  once : o.2.filterMap (Event.lastOf id) = [] ∨
    ∃ last, o.2.filterMap (Event.lastOf id) = [last] ∧ (last = true → Parted o.1 id)

theorem lastOf_silent {id : Nat} {events : List (Event α)} (silent : SilentOf id events) :
    events.filterMap (Event.lastOf id) = [] := by
  refine List.filterMap_eq_nil_iff.mpr fun e he => ?_
  cases e with
  | called worker batch last => exact if_neg fun hid => silent _ he (congrArg some hid)
  | _ => rfl

/-- A round has one call at most. -/
theorem Round.lastOf {p : Pool α} {w u : Worker α} {events : List (Event α)}
    (round : Round p w events u) : events.filterMap (Event.lastOf w.id) = [] ∨
      ∃ last, events.filterMap (Event.lastOf w.id) = [last] ∧ (last = true → u.Leaving) := by
  have hcalled (batch : List (Entry α)) (last : Bool) :
      [Event.called w.id batch last].filterMap (Event.lastOf w.id) = [last] :=
    List.filterMap_cons_some (if_pos rfl)
  cases round with
  | gather | pause | lapse | back => exact Or.inl rfl
  | fill | handOver => exact Or.inr ⟨false, hcalled _ false, nofun⟩
  | last free ended taken =>
      have htook : (taken.map fun e : Entry α => (Event.took w.id e.push : Event α)).filterMap
          (Event.lastOf w.id) = [] := by
        rw [List.filterMap_map]
        exact List.filterMap_eq_nil_iff.mpr fun _ _ => rfl
      refine Or.inr ⟨true, ?_, fun _ => ⟨_, rfl⟩⟩
      rw [List.filterMap_append, htook, hcalled, List.nil_append]

theorem step_tells {p : Pool α} (h : Roster p) (id : Nat) {label : Label α} {o : Outcome α}
    (ho : p.step label = some o) : Tells p id o := by
  have hroster : Roster o.1 := (step_moved h ho).roster
  have hhired : p.hired ≤ o.1.hired := step_hired_le ho
  cases step_fares h ho id with
  | same worker silent =>
      refine ⟨fun parted => ⟨⟨parted.given.trans_le hhired, ?_⟩, lastOf_silent silent⟩,
        Or.inl (lastOf_silent silent)⟩
      rintro v hv rfl
      have hbefore : p.worker? v.id = some v := worker.symm.trans (hroster.worker?_of_mem hv)
      exact parted.leaves v (worker?_some hbefore).1 rfl
  | comes crew fresh there silent =>
      exact ⟨fun parted => absurd parted.given (not_lt.mpr fresh), Or.inl (lastOf_silent silent)⟩
  | round w u here there now round =>
      obtain ⟨hw, rfl⟩ := worker?_some here
      refine ⟨fun parted => absurd (parted.leaves w hw rfl) round.stays, ?_⟩
      refine round.lastOf.imp id fun ⟨last, hone, hlast⟩ => ⟨last, hone, fun hend => ?_⟩
      refine ⟨(h.id_lt w hw).trans_le hhired, fun v hv hid => ?_⟩
      have hv' := hroster.worker?_of_mem hv
      rw [hid, there] at hv'
      exact Option.some.inj hv' ▸ hlast hend
  | goes w here there none_held told =>
      obtain ⟨hw, rfl⟩ := worker?_some here
      have hquiet : o.2.filterMap (Event.lastOf w.id) = [] := by
        rcases told with told | ⟨batch, panicked, told⟩ <;> simp [told, Event.lastOf]
      refine ⟨fun _ => ⟨⟨(h.id_lt w hw).trans_le hhired, fun v hv hid => ?_⟩, hquiet⟩,
        Or.inl hquiet⟩
      have hv' := hroster.worker?_of_mem hv
      rw [hid, there] at hv'
      cases hv'

/-- A call that a worker makes after another one shows that the other one was not its last. -/
theorem Run.lastsOf_dropLast {config : Config} {may : Pool α → Label α → Prop} {p : Pool α}
    {labels : List (Label α)} {history : List (Nat × Event α)}
    (run : Run config may p labels history) (id : Nat) : true ∉ (lastsOf id history).dropLast := by
  -- Once a last call is told, its worker has parted; that carries the induction.
  suffices hboth : true ∉ (lastsOf id history).dropLast ∧
      (true ∈ lastsOf id history → Parted p id) from
    hboth.1
  induction run with
  | start now => exact ⟨by simp [lastsOf], by simp [lastsOf]⟩
  | next run hmay hstep ih =>
      obtain ⟨hearlier, hparted⟩ := ih
      have tells := step_tells run.roster.1 id hstep
      rw [lastsOf_append, lastsOf_stamp]
      rcases tells.once with hnone | ⟨last, hone, hlast⟩
      · rw [hnone, List.append_nil]
        exact ⟨hearlier, fun h => (tells.parted (hparted h)).1⟩
      · have hbefore : true ∉ lastsOf id _ := fun h => by
          have hnone := (tells.parted (hparted h)).2
          rw [hone] at hnone
          cases hnone
        rw [hone, List.dropLast_concat]
        refine ⟨hbefore, fun h => hlast ?_⟩
        rcases List.mem_append.mp h with h | h
        · exact absurd h hbefore
        · exact (List.mem_singleton.mp h).symm

end Coordination.Pool
