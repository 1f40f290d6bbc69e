import Coordination.Proofs.Lock.Sections

/-!
Work under a lock. A section works from its grant until it ends or breaks off, and its lock goes
with it at the latest: the lock may have gone before, and its key may have been granted again, but
then the section finds that its token does not hold the key and takes nothing away.
-/

namespace Coordination.Lock

variable {τ ε α : Type}

/-- The grant of the section's token, and the beginning of its work right after it. -/
def Begun (history : List (SectionEvent τ ε α)) (h : Holding τ) : Prop :=
  ∃ before after,
    history = before ++ .locker (.granted h.call h.key h.token) :: .began h.call :: after

section Begun

variable {history events : List (SectionEvent τ ε α)} {h : Holding τ}

/-- The service speaks first. -/
def Spoken : List (SectionEvent τ ε α) → Prop
  | .began _ :: _ => False
  | _ => True

/-- A grant and the beginning of the work are told together. -/
theorem begun_append (hspoken : Spoken events) :
    Begun (history ++ events) h ↔ Begun history h ∨ Begun events h := by
  constructor
  · rintro ⟨before, after, heq⟩
    rcases List.append_eq_append_iff.mp heq with ⟨front, hbefore, hevents⟩ | ⟨rest, hpast, hrest⟩
    · exact Or.inr ⟨front, after, hevents⟩
    · rcases rest with _ | ⟨x, _ | ⟨y, rest⟩⟩
      · exact Or.inr ⟨[], after, by simpa using hrest.symm⟩
      · -- The grant would be the last thing told before, and the beginning the first thing now.
        simp only [List.cons_append, List.nil_append, List.cons.injEq] at hrest
        rw [← hrest.2] at hspoken
        exact hspoken.elim
      · simp only [List.cons_append, List.cons.injEq] at hrest
        obtain ⟨rfl, rfl, -⟩ := hrest
        exact Or.inl ⟨before, rest, hpast⟩
  · rintro (⟨before, after, rfl⟩ | ⟨before, after, rfl⟩)
    · exact ⟨before, after ++ events, by simp⟩
    · exact ⟨history ++ before, after, by simp⟩

theorem Begun.mem (hb : Begun events h) : .began h.call ∈ events := by
  obtain ⟨before, after, rfl⟩ := hb
  simp

end Begun

section ServiceEvents

theorem serviceEvents_append (h k : List (SectionEvent τ ε α)) :
    serviceEvents (h ++ k) = serviceEvents h ++ serviceEvents k := List.filterMap_append

theorem serviceEvents_map (events : List (Event τ)) :
    serviceEvents (events.map .locker : List (SectionEvent τ ε α)) = events := by
  rw [serviceEvents, List.filterMap_map]
  exact List.filterMap_some

theorem mem_serviceEvents {history : List (SectionEvent τ ε α)} {e : Event τ} :
    e ∈ serviceEvents history ↔ .locker e ∈ history := by
  simp only [serviceEvents, List.mem_filterMap]
  constructor
  · rintro ⟨x, hx, heq⟩
    cases x with
    | locker event =>
        obtain rfl := Option.some.inj heq
        exact hx
    | began | ended => cases heq
  · intro he
    exact ⟨.locker e, he, rfl⟩

theorem Begun.granted {history : List (SectionEvent τ ε α)} {h : Holding τ} (hb : Begun history h) :
    .granted h.call h.key h.token ∈ serviceEvents history := by
  obtain ⟨before, after, rfl⟩ := hb
  rw [mem_serviceEvents]
  simp

end ServiceEvents

namespace Sections

/-- The sections are told apart by their calls, and those without their key wait for it. -/
structure Orderly (s : Sections τ) : Prop where
  calls_nodup : (s.entering ++ s.working.map Holding.call).Nodup
  waiting : ∀ call ∈ s.entering, call ∈ s.locker.waiting.map Waiter.call

variable {s t : Sections τ}

theorem Orderly.holding?_eq (hs : s.Orderly) {h : Holding τ} (hh : h ∈ s.working) :
    s.holding? h.call = some h :=
  find?_key (List.Nodup.of_append_right hs.calls_nodup) hh

theorem Orderly.mem_filter (hs : s.Orderly) {h : Holding τ} (hh : h ∈ s.working) {x : Holding τ}
    (hx : x ∈ s.working) : x ∈ s.working.filter (fun y => y.call ≠ h.call) ∨ x = h := by
  rcases eq_or_ne x.call h.call with heq | hne
  · exact Or.inr (List.inj_on_of_nodup_map (List.Nodup.of_append_right hs.calls_nodup) hx hh heq)
  · exact Or.inl (List.mem_filter.mpr ⟨hx, decide_eq_true hne⟩)

/-- The call belongs to a section that waits for its key, or is new. -/
def Waits (s : Sections τ) (label : SectionLabel τ ε α) (call : Nat) : Prop :=
  call ∈ s.entering ∨
    ∃ key options cancelled fresh, label = .enter call key options cancelled fresh

theorem Serves.mem {label : SectionLabel τ ε α} {step : Label τ} {entering : List Nat}
    (serves : Serves s label step entering)
    {call : Nat} (h : s.Waits label call) : call ∈ entering := by
  cases serves with
  | locker step stays => exact h.resolve_right (by simp)
  | enter new key options cancelled fresh _ =>
      rcases h with h | ⟨_, _, _, _, heq⟩
      · exact List.mem_cons_of_mem _ h
      · rw [(SectionLabel.enter.inj heq).1]
        exact List.mem_cons_self

variable [DecidableEq τ] {label : SectionLabel τ ε α}

theorem Serves.calls_nodup {step : Label τ} {entering : List Nat} {o : Locker τ × List (Event τ)}
    (h : Serves s label step entering) (made : s.locker.step step = some o) (hs : s.Orderly) :
    (entering ++ s.working.map Holding.call).Nodup := by
  cases h with
  | locker step stays => exact hs.calls_nodup
  | enter call key options cancelled fresh new =>
      refine List.nodup_cons.mpr ⟨fun hmem => ?_, hs.calls_nodup⟩
      rcases List.mem_append.mp hmem with hentering | hworking
      · -- Its number would be that of a call that waits, and such a call is refused.
        obtain ⟨w, hw, heq⟩ := List.mem_map.mp (hs.waiting call hentering)
        exact key_ne_of_find? (lock_some made).1 hw heq
      · obtain ⟨h, hh, heq⟩ := List.mem_map.mp hworking
        exact key_ne_of_find? new hh heq

/-- A section that is not answered waits on. -/
theorem Serves.waiting {step : Label τ} {entering : List Nat} {o : Locker τ × List (Event τ)}
    (h : Serves s label step entering) (made : s.locker.step step = some o) (hs : s.Orderly)
    {call : Nat} (hcall : call ∈ entering) (hnot : ¬ Answered call o.2) :
    call ∈ o.1.waiting.map Waiter.call := by
  cases h with
  | locker step stays =>
      exact (step_stays made (Or.inl (hs.waiting call hcall)) (stays call hcall)).resolve_right hnot
  | enter new key options cancelled fresh _ =>
      refine (step_stays made ?_ (by simp)).resolve_right hnot
      rcases List.mem_cons.mp hcall with rfl | hcall
      · exact Or.inr ⟨key, options, cancelled, fresh, rfl⟩
      · exact Or.inl (hs.waiting call hcall)

theorem Acts.orderly {o : Sections τ × List (SectionEvent τ ε α)} (h : Acts s label o)
    (hs : s.Orderly) : o.1.Orderly := by
  have hleave (h : Holding τ) : (s.entering ++
      (s.working.filter fun x => x.call ≠ h.call).map Holding.call).Nodup :=
    hs.calls_nodup.sublist ((List.filter_sublist.map Holding.call).append_left s.entering)
  cases h with
  | begin step entering serves m h made own =>
      have hnodup := serves.calls_nodup made hs
      refine ⟨?_, fun call hcall => ?_⟩
      · have hperm : (entering ++ s.working.map Holding.call).Perm
            (entering.erase h.call ++ (s.working ++ [h]).map Holding.call) := by
          rw [List.map_append, List.map_singleton, ← List.append_assoc]
          exact ((List.perm_cons_erase own).append_right _).trans
            (List.perm_append_singleton h.call _).symm
        exact hperm.nodup_iff.mp hnodup
      · obtain ⟨hne, hmem⟩ := (List.Nodup.of_append_left hnodup).mem_erase_iff.mp hcall
        refine serves.waiting made hs hmem ?_
        simpa [Answered] using hne
  | fail step entering serves m call error made own =>
      have hnodup := serves.calls_nodup made hs
      refine ⟨hnodup.sublist (List.erase_sublist.append_right _), fun other hother => ?_⟩
      obtain ⟨hne, hmem⟩ := (List.Nodup.of_append_left hnodup).mem_erase_iff.mp hother
      refine serves.waiting made hs hmem ?_
      simpa [Answered] using hne
  | keep step entering serves o made others =>
      exact ⟨serves.calls_nodup made hs, fun call hcall =>
        serves.waiting made hs hcall (others call hcall)⟩
  | finish h work works own =>
      refine ⟨hleave h, fun call hcall => ?_⟩
      rw [release_waiting]
      exact hs.waiting call hcall
  | quit h works own =>
      refine ⟨hleave h, fun call hcall => ?_⟩
      rw [release_waiting]
      exact hs.waiting call hcall
  | forsake call waits own =>
      refine ⟨hs.calls_nodup.sublist (List.erase_sublist.append_right _), fun other hother => ?_⟩
      obtain ⟨hne, hmem⟩ :=
        (List.Nodup.of_append_left hs.calls_nodup).mem_erase_iff.mp hother
      exact mem_forget_calls hne (hs.waiting other hmem)

section Service

/-- A step with sections is one step of the service. -/
theorem Acts.service {o : Sections τ × List (SectionEvent τ ε α)} (h : Acts s label o) :
    ∃ step, s.locker.step step = some (o.1.locker, serviceEvents o.2) ∧
      step.drawn? = label.drawn? := by
  have hserves {step : Label τ} {entering : List Nat} (hserves : Serves s label step entering) :
      step.drawn? = label.drawn? := by
    cases hserves <;> rfl
  cases h with
  | begin step entering serves m h made own => exact ⟨step, made, hserves serves⟩
  | fail step entering serves m call error made own => exact ⟨step, made, hserves serves⟩
  | keep step entering serves o made others =>
      refine ⟨step, ?_, hserves serves⟩
      rw [made, serviceEvents_map]
  | finish h work works own =>
      refine ⟨.release h.key h.token, ?_, by rw [own]; rfl⟩
      rw [serviceEvents_append, serviceEvents_map]
      exact congrArg some (Prod.ext rfl (List.append_nil _).symm)
  | quit h works own =>
      refine ⟨.release h.key h.token, ?_, by rw [own]; rfl⟩
      rw [serviceEvents_map]
      rfl
  | forsake call waits own => exact ⟨.drop call, rfl, by rw [own]; rfl⟩

/-- A run with sections is a run of the service. -/
theorem Run.service {labels : List (SectionLabel τ ε α)} {history : List (SectionEvent τ ε α)}
    (run : Run s labels history) : ∃ steps, Lock.Run s.locker steps (serviceEvents history) := by
  induction run with
  | start => exact ⟨[], .start⟩
  | next run fresh hstep ih =>
      obtain ⟨steps, hrun⟩ := ih
      obtain ⟨step, hmade, hdrawn⟩ := (step_acts hstep).service
      rw [serviceEvents_append]
      rw [SectionLabel.Fresh, ← hdrawn] at fresh
      exact ⟨steps ++ [step], hrun.next fresh hmade⟩

theorem Run.orderly {labels : List (SectionLabel τ ε α)} {history : List (SectionEvent τ ε α)}
    (run : Run s labels history) : s.Orderly := by
  induction run with
  | start => exact ⟨List.nodup_nil, fun _ hcall => absurd hcall List.not_mem_nil⟩
  | next run fresh hstep ih => exact (step_acts hstep).orderly ih

end Service

section Release

variable {l : Locker τ} {key : String} {token : τ}

/-- A release takes away the record of its token and no other. -/
theorem release_records (h : (l.records.map Prod.fst).Nodup) (key : String) (token : τ) :
    (l.release key token).1.records = l.records.filter fun r => r ≠ (key, token) := by
  by_cases hheld : l.holder? key = some token
  · have hrelease : (l.release key token).1.records = l.records.filter fun r => r.1 ≠ key := by
      simp only [Locker.release, Locker.remove, hheld, if_true]
    rw [hrelease]
    refine List.filter_congr fun r hr => decide_eq_decide.mpr (not_congr ?_)
    refine ⟨fun hkey => ?_, fun heq => ?_⟩
    · have hother : l.holder? key = some r.2 := (holder?_eq_some h).mpr (hkey ▸ hr)
      rw [hheld] at hother
      exact Prod.ext hkey (Option.some.inj hother).symm
    · rw [heq]
  · have hrelease : (l.release key token).1.records = l.records := by
      simp only [Locker.release, Locker.remove, hheld, if_false]
    rw [hrelease, List.filter_eq_self.mpr]
    intro r hr
    refine decide_eq_true fun heq => hheld ?_
    exact (holder?_eq_some h).mpr (heq ▸ hr)

/-- A granted token that is released has its signal fired, now or before. -/
theorem release_signals {steps : List (Label τ)} {history : List (Event τ)} {call : Nat}
    (run : Lock.Run l steps history) (h : .granted call key token ∈ history) :
    token ∈ (l.release key token).1.released := by
  have hstep : l.step (.release key token) = some (l.release key token) := rfl
  rw [step_released hstep]
  rcases run.held_or_released h with hheld | hreleased
  · refine Or.inr ⟨key, ?_⟩
    simp only [Locker.release, Locker.remove, hheld, if_true, List.mem_singleton]
  · exact Or.inl hreleased

end Release

/-- The sections at work are those that have begun and whose tokens they have not given up. -/
structure Kept (s : Sections τ) (history : List (SectionEvent τ ε α)) : Prop where
  working : ∀ h ∈ s.working, Begun history h
  released : ∀ h, Begun history h → h ∈ s.working ∨ h.token ∈ s.locker.released

/-- What a step tells begins with the service, and the section that begins in it works after it. -/
theorem Acts.begun {o : Sections τ × List (SectionEvent τ ε α)} (ha : Acts s label o) :
    Spoken o.2 ∧ ∀ h, Begun o.2 h → h ∈ o.1.working := by
  have hspoken (events : List (Event τ)) (rest : List (SectionEvent τ ε α)) (hrest : Spoken rest) :
      Spoken (events.map .locker ++ rest) := by
    cases events with
    | nil => exact hrest
    | cons e events => trivial
  have hnone {events : List (SectionEvent τ ε α)} (hnot : ∀ call, .began call ∉ events)
      (h : Holding τ) (hb : Begun events h) : h ∈ o.1.working := absurd hb.mem (hnot h.call)
  cases ha with
  | begin step entering serves m h made own =>
      refine ⟨trivial, fun x hx => ?_⟩
      obtain ⟨before, after, heq⟩ := hx
      rcases before with _ | ⟨y, _ | ⟨z, before⟩⟩
      · simp only [List.nil_append, List.cons.injEq, SectionEvent.locker.injEq,
          Event.granted.injEq] at heq
        obtain ⟨⟨hcall, hkey, htoken⟩, -⟩ := heq
        obtain rfl : h = x := by
          cases h
          cases x
          simp_all
        exact List.mem_append_right _ (List.mem_singleton_self h)
      · simp at heq
      · simp at heq
  | fail step entering serves m call error made own => exact ⟨trivial, hnone (by simp)⟩
  | keep step entering serves o made others =>
      have hkeep := hspoken o.2 [] trivial
      rw [List.append_nil] at hkeep
      exact ⟨hkeep, hnone (by simp)⟩
  | finish h work works own => exact ⟨hspoken _ _ trivial, hnone (by simp)⟩
  | quit h works own =>
      have hquit := hspoken (s.locker.release h.key h.token).2 [] trivial
      rw [List.append_nil] at hquit
      exact ⟨hquit, hnone (by simp)⟩
  | forsake call waits own => exact ⟨trivial, hnone (by simp)⟩

/-- A section works on unless it releases its lock, and no section works without its grant. -/
theorem Acts.working {o : Sections τ × List (SectionEvent τ ε α)} (ha : Acts s label o)
    (hs : s.Orderly) :
    (∀ h ∈ o.1.working, h ∈ s.working ∨ Begun o.2 h) ∧
      ∀ h ∈ s.working, h ∈ o.1.working ∨ o.1.locker = (s.locker.release h.key h.token).1 := by
  cases ha with
  | begin step entering serves m h made own =>
      refine ⟨fun x hx => ?_, fun x hx => Or.inl (List.mem_append_left _ hx)⟩
      rcases List.mem_append.mp hx with hx | hx
      · exact Or.inl hx
      · obtain rfl := List.mem_singleton.mp hx
        exact Or.inr ⟨[], [], rfl⟩
  | fail | keep | forsake => exact ⟨fun x hx => Or.inl hx, fun x hx => Or.inl hx⟩
  | finish h work works own =>
      refine ⟨fun x hx => Or.inl (List.mem_filter.mp hx).1, fun x hx => ?_⟩
      rcases hs.mem_filter (holding?_some works).1 hx with hx | rfl
      · exact Or.inl hx
      · exact Or.inr rfl
  | quit h works own =>
      refine ⟨fun x hx => Or.inl (List.mem_filter.mp hx).1, fun x hx => ?_⟩
      rcases hs.mem_filter (holding?_some works).1 hx with hx | rfl
      · exact Or.inl hx
      · exact Or.inr rfl

theorem Acts.kept {o : Sections τ × List (SectionEvent τ ε α)} (ha : Acts s label o)
    {steps : List (Label τ)} {history : List (SectionEvent τ ε α)}
    (run : Lock.Run s.locker steps (serviceEvents history)) (hs : s.Orderly) (hk : Kept s history) :
    Kept o.1 (history ++ o.2) := by
  obtain ⟨hspoken, hnew⟩ := ha.begun
  obtain ⟨hold, hstay⟩ := ha.working hs
  obtain ⟨step, hmade, -⟩ := ha.service
  refine ⟨fun h hh => ?_, fun h hb => ?_⟩
  · rw [begun_append hspoken]
    exact (hold h hh).imp_left (hk.working h)
  · rcases (begun_append hspoken).mp hb with hpast | hnow
    · rcases hk.released h hpast with hworks | hreleased
      · refine (hstay h hworks).imp_right fun hrelease => ?_
        rw [hrelease]
        exact release_signals run hpast.granted
      · exact Or.inr ((step_released hmade h.token).mpr (Or.inl hreleased))
    · exact Or.inl (hnew h hnow)

theorem Run.kept {labels : List (SectionLabel τ ε α)} {history : List (SectionEvent τ ε α)}
    (run : Run s labels history) : Kept s history := by
  induction run with
  | start =>
    exact ⟨fun _ hh => absurd hh List.not_mem_nil, fun _ hb => absurd hb.mem List.not_mem_nil⟩
  | next run fresh hstep ih =>
      obtain ⟨steps, hrun⟩ := run.service
      exact (step_acts hstep).kept hrun run.orderly ih

section Ends

/-- The section has left, its lock is gone, and nothing else has changed among records and
sections. -/
structure Settled (s t : Sections τ) (h : Holding τ) : Prop where
  left : h ∉ t.working
  others : ∀ x ∈ s.working, x ∈ t.working ∨ x = h
  records : t.locker.records = s.locker.records.filter fun r => r ≠ (h.key, h.token)

def settled (s : Sections τ) (h : Holding τ) : Sections τ :=
  ⟨(s.locker.release h.key h.token).1, s.entering, s.working.filter fun x => x.call ≠ h.call⟩

theorem Run.settled {labels : List (SectionLabel τ ε α)} {history : List (SectionEvent τ ε α)}
    (run : Run s labels history) {h : Holding τ} (hh : h ∈ s.working) :
    Settled s (s.settled h) h := by
  obtain ⟨steps, hrun⟩ := run.service
  refine ⟨fun hmem => ?_, fun x hx => run.orderly.mem_filter hh hx,
    release_records hrun.recorded.keys_nodup _ _⟩
  simpa using (List.mem_filter.mp hmem).2

theorem release_tells (l : Locker τ) (key : String) (token : τ) :
    ∃ e, (l.release key token).2 = [e] := by
  unfold Locker.release
  split
  · exact ⟨_, rfl⟩
  · exact ⟨_, rfl⟩

theorem Orderly.step_finish (hs : s.Orderly) {h : Holding τ} (hh : h ∈ s.working)
    (work : Work ε α) :
    ∃ e, s.step (.finish h.call work) = some (s.settled h, [.locker e,
      .ended h.call (result work (s.locker.holder? h.key = some h.token))]) := by
  obtain ⟨e, he⟩ := release_tells s.locker h.key h.token
  refine ⟨e, ?_⟩
  simp only [Sections.step, finish, hs.holding?_eq hh, withLocker_release, he]
  rfl

theorem Orderly.step_abandon (hs : s.Orderly) {h : Holding τ} (hh : h ∈ s.working) :
    ∃ e, s.step (.abandon h.call : SectionLabel τ ε α) = some (s.settled h, [.locker e]) := by
  obtain ⟨e, he⟩ := release_tells s.locker h.key h.token
  refine ⟨e, ?_⟩
  simp only [Sections.step, abandon, hs.holding?_eq hh, withLocker_release, he]
  rfl

/-- A section that waits can break off, and nothing is left of it. -/
theorem Orderly.step_forsake (hs : s.Orderly) {call : Nat} (hcall : call ∈ s.entering) :
    s.step (.abandon call : SectionLabel τ ε α) =
      some (⟨s.locker.forget call, s.entering.erase call, s.working⟩, []) := by
  have hnone : s.holding? call = none := by
    refine List.find?_eq_none.mpr fun h hh => ?_
    have hne := (List.nodup_append.mp hs.calls_nodup).2.2 call hcall h.call (List.mem_map_of_mem hh)
    simpa using hne.symm
  simp only [Sections.step, abandon, hnone, List.contains_iff_mem.mpr hcall, if_true]

end Ends

section Steps

variable {o : Sections τ × List (SectionEvent τ ε α)}

/-- Work begins right after its grant, in the same step. -/
theorem Acts.began (ha : Acts s label o) {front after : List (SectionEvent τ ε α)} {call : Nat}
    (h : o.2 = front ++ .began call :: after) :
    ∃ key token, front = [.locker (.granted call key token)] := by
  have hmem : .began call ∈ o.2 := by
    rw [h]
    simp
  cases ha with
  | begin step entering serves m holding made own =>
      rcases front with _ | ⟨x, _ | ⟨y, front⟩⟩
      · simp at h
      · simp only [List.cons_append, List.nil_append, List.cons.injEq,
          SectionEvent.began.injEq] at h
        obtain ⟨rfl, rfl, -⟩ := h
        exact ⟨_, _, rfl⟩
      · simp at h
  | fail | keep | finish | quit | forsake => simp at hmem

theorem Run.began {labels : List (SectionLabel τ ε α)}
    {history before after : List (SectionEvent τ ε α)} {call : Nat} (run : Run s labels history)
    (h : history = before ++ .began call :: after) :
    ∃ front key token, before = front ++ [.locker (.granted call key token)] := by
  induction run generalizing after with
  | start => simp at h
  | @next s t labels history events label run fresh hstep ih =>
      have ha := step_acts hstep
      rcases List.append_eq_append_iff.mp h with ⟨front, hbefore, hevents⟩ | ⟨rest, hpast, hrest⟩
      · obtain ⟨key, token, hfront⟩ := ha.began hevents
        exact ⟨history, key, token, by rw [hbefore, hfront]⟩
      · rcases rest with _ | ⟨x, rest⟩
        · have hspoken := ha.begun.1
          rw [List.nil_append] at hrest
          rw [← hrest] at hspoken
          exact hspoken.elim
        · rw [List.cons_append, List.cons.injEq] at hrest
          obtain ⟨rfl, -⟩ := hrest
          exact ih hpast

/-- A section works as soon as its call is granted, and has ended as soon as its call fails. -/
theorem Acts.answers (ha : Acts s label o) {call : Nat} (h : s.Waits label call) :
    (∀ key token, .locker (.granted call key token) ∈ o.2 →
      o.2 = [.locker (.granted call key token), .began call] ∧ ⟨call, key, token⟩ ∈ o.1.working) ∧
    ∀ error, .locker (.failed call error) ∈ o.2 →
      o.2 = [.locker (.failed call error), .ended call (.lockError error)] := by
  have hrelease (key : String) (token : τ) {x : Event τ} (hx : x ∈ (s.locker.release key token).2) :
      x = .removed key token ∨ x = .refused key token := by
    unfold Locker.release at hx
    split at hx
    · exact Or.inl (List.mem_singleton.mp hx)
    · exact Or.inr (List.mem_singleton.mp hx)
  cases ha with
  | begin step entering serves m holding made own =>
      refine ⟨fun key token hmem => ?_, by simp⟩
      obtain ⟨rfl, rfl, rfl⟩ : call = holding.call ∧ key = holding.key ∧ token = holding.token := by
        simpa using hmem
      exact ⟨rfl, List.mem_append_right _ (List.mem_singleton_self _)⟩
  | fail step entering serves m other failure made own =>
      refine ⟨by simp, fun error hmem => ?_⟩
      obtain ⟨rfl, rfl⟩ : call = other ∧ error = failure := by simpa using hmem
      rfl
  | keep step entering serves next made others =>
      have hnot := others call (serves.mem h)
      refine ⟨fun key token hmem => absurd (Or.inl ⟨key, token, ?_⟩) hnot,
        fun error hmem => absurd (Or.inr ⟨error, ?_⟩) hnot⟩
      · simpa using hmem
      · simpa using hmem
  | finish holding work works own =>
      refine ⟨fun key token hmem => ?_, fun error hmem => ?_⟩
      · rcases hrelease _ _ (by simpa using hmem) with heq | heq <;> cases heq
      · rcases hrelease _ _ (by simpa using hmem) with heq | heq <;> cases heq
  | quit holding works own =>
      refine ⟨fun key token hmem => ?_, fun error hmem => ?_⟩
      · rcases hrelease _ _ (by simpa using hmem) with heq | heq <;> cases heq
      · rcases hrelease _ _ (by simpa using hmem) with heq | heq <;> cases heq
  | forsake => exact ⟨by simp, by simp⟩

/-- A section has its result from the failure of its call, or from the end of its work. -/
theorem Acts.ended (ha : Acts s label o) {call : Nat} {r : SectionResult ε α}
    (h : .ended call r ∈ o.2) :
    (∃ error, r = .lockError error ∧ o.2 = [.locker (.failed call error), .ended call r]) ∨
      ∃ work, label = .finish call work := by
  cases ha with
  | begin | keep | quit | forsake => simp at h
  | fail step entering serves m other failure made own =>
      obtain ⟨rfl, rfl⟩ : call = other ∧ r = .lockError failure := by simpa using h
      exact Or.inl ⟨failure, rfl, rfl⟩
  | finish holding work works own =>
      obtain ⟨rfl, -⟩ : call = holding.call ∧ _ := by simpa using h
      exact Or.inr ⟨work, own⟩

/-- A record goes by a release with its token, by its timer, or with the section that holds it. -/
theorem Acts.removes (ha : Acts s label o) (hkeys : (s.locker.records.map Prod.fst).Nodup)
    {r : String × τ} (hr : r ∈ s.locker.records) (hgone : r ∉ o.1.locker.records) :
    label = .locker (.release r.1 r.2) ∨ label = .locker (.expire r.1 r.2) ∨
      ∃ h ∈ s.working, r = (h.key, h.token) ∧
        (label = .abandon h.call ∨ ∃ work, label = .finish h.call work) := by
  have hserves {step : Label τ} {entering : List Nat} {next : Locker τ × List (Event τ)}
      (serves : Serves s label step entering) (made : s.locker.step step = some next)
      (hgone : r ∉ next.1.records) :
      label = .locker (.release r.1 r.2) ∨ label = .locker (.expire r.1 r.2) := by
    obtain ⟨m, events⟩ := next
    have hchanges := step_changes made
    dsimp only at hchanges hgone
    generalize m.records = records at hchanges hgone
    cases hchanges with
    | take => exact absurd (List.mem_cons_of_mem _ hr) hgone
    | keep => exact absurd hr hgone
    | free key token held frees =>
        have hkey : r.1 = key := by
          by_contra hne
          exact hgone (List.mem_filter.mpr ⟨hr, decide_eq_true hne⟩)
        have hheld : s.locker.holder? r.1 = some r.2 := (holder?_eq_some hkeys).mpr hr
        rw [hkey, held] at hheld
        obtain rfl := hkey
        obtain rfl := Option.some.inj hheld
        cases serves with
        | locker step stays =>
            rcases frees with rfl | ⟨rfl, -⟩
            · exact Or.inl rfl
            · exact Or.inr rfl
        | enter => rcases frees with heq | ⟨heq, -⟩ <;> cases heq
  have hreleased (h : Holding τ) (works : s.holding? h.call = some h)
      (hgone : r ∉ (s.locker.release h.key h.token).1.records) :
      h ∈ s.working ∧ r = (h.key, h.token) := by
    refine ⟨(holding?_some works).1, ?_⟩
    by_contra hne
    rw [release_records hkeys] at hgone
    exact hgone (List.mem_filter.mpr ⟨hr, decide_eq_true hne⟩)
  cases ha with
  | begin step entering serves m holding made own =>
      exact (hserves serves made hgone).imp_right Or.inl
  | fail step entering serves m call error made own =>
      exact (hserves serves made hgone).imp_right Or.inl
  | keep step entering serves next made others =>
      exact (hserves serves made hgone).imp_right Or.inl
  | finish h work works own =>
      obtain ⟨hworks, heq⟩ := hreleased h works hgone
      exact Or.inr (Or.inr ⟨h, hworks, heq, Or.inr ⟨work, own⟩⟩)
  | quit h works own =>
      obtain ⟨hworks, heq⟩ := hreleased h works hgone
      exact Or.inr (Or.inr ⟨h, hworks, heq, Or.inl own⟩)
  | forsake => exact absurd hr hgone

end Steps

section Runs

variable {labels : List (SectionLabel τ ε α)} {history : List (SectionEvent τ ε α)}

/-- The lock of a section is there unless a record of its token was removed. -/
theorem Run.held_iff (run : Run s labels history) {h : Holding τ} (hb : Begun history h) :
    (h.key, h.token) ∈ s.locker.records ↔ ∀ key, .locker (.removed key h.token) ∉ history := by
  obtain ⟨steps, hrun⟩ := run.service
  have hremoved : h.token ∈ s.locker.released ↔
      ∃ key, .locker (.removed key h.token) ∈ history := by
    rw [hrun.released_iff]
    exact exists_congr fun key => mem_serviceEvents
  rw [← not_exists, ← hremoved]
  constructor
  · exact fun hmem => hrun.owner_not_released hmem
  · intro hnot
    have hheld := (hrun.held_or_released hb.granted).resolve_right hnot
    exact (holder?_eq_some hrun.recorded.keys_nodup).mp hheld

/-- Sections keep to their locks, whatever else is done in whatever order, as long as no token is
drawn twice.

Work begins right after the grant of its lock and not without it; a section whose call fails has
that error as its result and never works. Once a section has left, no record has its token. A
section at work can end or break off at any time, and one that waits can break off: a record of its
token goes then, if there still is one, and no other; the result is the error of its work if that
failed, and otherwise the value of its work if the lock was still there. A record goes in no other
way than with the section that holds it, by a release with its token, or by its timer. -/
theorem work_under_lock (run : Run s labels history) :
    (∀ before call after, history = before ++ .began call :: after →
      ∃ front key token, before = front ++ [.locker (.granted call key token)]) ∧
    (∀ h, Begun history h → h ∈ s.working ∨ ∀ key, (key, h.token) ∉ s.locker.records) ∧
    (∀ h ∈ s.working, Begun history h ∧
      ((h.key, h.token) ∈ s.locker.records ↔ ∀ key, .locker (.removed key h.token) ∉ history)) ∧
    (∀ h ∈ s.working, ∀ work : Work ε α, ∃ t e r,
      s.step (.finish h.call work) = some (t, [.locker e, .ended h.call r]) ∧ Settled s t h ∧
      (∀ error, work = .failed error → r = .workFailed error) ∧
      (∀ value, work = .succeeded value →
        ((h.key, h.token) ∈ s.locker.records → r = .done value) ∧
        ((h.key, h.token) ∉ s.locker.records → r = .lockError .notFound))) ∧
    (∀ h ∈ s.working, ∃ t e,
      s.step (.abandon h.call : SectionLabel τ ε α) = some (t, [.locker e]) ∧ Settled s t h) ∧
    (∀ call ∈ s.entering, ∃ t, s.step (.abandon call : SectionLabel τ ε α) = some (t, []) ∧
      t.locker.records = s.locker.records ∧ t.working = s.working ∧
      call ∉ t.entering ∧ call ∉ t.locker.waiting.map Waiter.call) ∧
    ∀ (label : SectionLabel τ ε α) t events, s.step label = some (t, events) →
      (∀ call, s.Waits label call →
        (∀ key token, .locker (.granted call key token) ∈ events →
          events = [.locker (.granted call key token), .began call] ∧
            ⟨call, key, token⟩ ∈ t.working) ∧
        ∀ error, .locker (.failed call error) ∈ events →
          events = [.locker (.failed call error), .ended call (.lockError error)]) ∧
      (∀ call r, .ended call r ∈ events →
        (∃ error, r = .lockError error ∧ events = [.locker (.failed call error), .ended call r]) ∨
          ∃ work, label = .finish call work) ∧
      ∀ r ∈ s.locker.records, r ∉ t.locker.records →
        label = .locker (.release r.1 r.2) ∨ label = .locker (.expire r.1 r.2) ∨
          ∃ h ∈ s.working, r = (h.key, h.token) ∧
            (label = .abandon h.call ∨ ∃ work, label = .finish h.call work) := by
  obtain ⟨steps, hrun⟩ := run.service
  have hkeys := hrun.recorded.keys_nodup
  refine ⟨fun before call after => run.began, ?_, ?_, ?_, ?_, ?_, ?_⟩
  · intro h hb
    refine (run.kept.released h hb).imp_right fun hreleased key hmem => ?_
    exact hrun.owner_not_released hmem hreleased
  · intro h hh
    have hb := run.kept.working h hh
    exact ⟨hb, run.held_iff hb⟩
  · intro h hh work
    obtain ⟨e, hstep⟩ := run.orderly.step_finish hh work
    refine ⟨_, e, _, hstep, run.settled hh, ?_, ?_⟩
    · rintro error rfl
      rfl
    · rintro value rfl
      rw [result, ← holder?_eq_some hkeys]
      exact ⟨fun hheld => by simp [hheld], fun hgone => by simp [hgone]⟩
  · intro h hh
    obtain ⟨e, hstep⟩ := run.orderly.step_abandon hh
    exact ⟨_, e, hstep, run.settled hh⟩
  · intro call hcall
    refine ⟨_, run.orderly.step_forsake hcall, rfl, rfl, ?_, ?_⟩
    · exact (List.Nodup.of_append_left run.orderly.calls_nodup).not_mem_erase
    · simp [Locker.forget]
  · intro label t events hstep
    have ha := step_acts hstep
    exact ⟨fun call => ha.answers, fun call r => ha.ended, fun r => ha.removes hkeys⟩

/-- A section whose lock expires while it works, and whose key is granted to another section before
its work has succeeded. -/
def expiredSteps : List (SectionLabel Nat String Bool) :=
  [.enter 0 "a" { expiration := some (.ofNanos 1) } false 10, .enter 1 "a" {} false 11,
    .locker (.tick 5), .locker (.expire "a" 10), .locker (.retry 1 12), .finish 0 (.succeeded true)]

theorem work_under_lock_expired :
    ∃ (s t : Sections Nat) (history : List (SectionEvent Nat String Bool)) (e : Event Nat),
      Run s expiredSteps history ∧
      history = [.locker (.granted 0 "a" 10), .began 0, .locker (.waits 1 10),
        .locker (.removed "a" 10), .locker (.granted 1 "a" 12), .began 1,
        .locker (.refused "a" 10), .ended 0 (.lockError .notFound)] ∧
      s.locker.records = [("a", 12)] ∧
      (∀ h, Begun history h → h ∈ s.working ∨ ∀ key, (key, h.token) ∉ s.locker.records) ∧
      s.step (.abandon 1 : SectionLabel Nat String Bool) = some (t, [.locker e]) ∧
      Settled s t ⟨1, "a", 12⟩ := by
  have run : Run _ ([] ++ expiredSteps) _ := Run.start.replay rfl
  obtain ⟨-, hleft, -, -, hquit, -⟩ := work_under_lock run
  obtain ⟨t, e, hstep, hsettled⟩ := hquit ⟨1, "a", 12⟩ (by decide)
  exact ⟨_, t, _, e, run, by decide, by decide, hleft, hstep, hsettled⟩

end Runs

end Sections

end Coordination.Lock
