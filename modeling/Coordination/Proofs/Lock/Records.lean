import Mathlib.Data.List.Flatten
import Mathlib.Data.List.Nodup
import Coordination.Proofs.Lock.Step

/-!
The records of a lock service against its history. A step takes a free key, gives a held one back
or leaves the records alone. A grant stands until its record is removed, and in every run the
records are the grants that stand, each key with one of them at most.
-/

namespace Coordination.Lock

variable {τ : Type}

/-- How one step changes the records, and what it tells. -/
inductive Changes (l : Locker τ) (label : Label τ) :
    List (Event τ) → List (String × τ) → Prop where
  | take (call : Nat) (key : String) (token : τ) (free : l.holder? key = none)
    (drawn : label.drawn? = some token) :
    Changes l label [.granted call key token] ((key, token) :: l.records)
  | free (key : String) (token : τ) (held : l.holder? key = some token)
    (frees : Frees l label key token) :
    Changes l label [.removed key token] (l.records.filter fun r => r.1 ≠ key)
  | keep (events : List (Event τ)) (quiet : ∀ e ∈ events, e.Quiet) :
    Changes l label events l.records

/-- A look at a key depends on the records alone, so a call may have stopped waiting before it. -/
theorem attempt_changes {l k : Locker τ} (hrecords : k.records = l.records) (w : Waiter τ)
    (fresh : τ) {label : Label τ} (drawn : label.drawn? = some fresh) :
    Changes l label (k.attempt w fresh).2 (k.attempt w fresh).1.records := by
  have hholder : k.holder? w.key = l.holder? w.key := by
    rw [Locker.holder?, Locker.holder?, hrecords]
  unfold Locker.attempt
  split
  · rename_i hfree
    have htake := Changes.take w.call w.key fresh (hholder ▸ hfree) drawn
    rw [← hrecords] at htake
    exact htake
  · split
    · rw [hrecords]
      exact Changes.keep _ (by simp [Event.Quiet])
    · dsimp only
      rw [hrecords]
      exact Changes.keep _ (by simp [Event.Quiet])

/-- A step takes a free key, gives a held one back, or changes no record. -/
theorem step_changes [DecidableEq τ] {l : Locker τ} {label : Label τ}
    {o : Locker τ × List (Event τ)}
    (h : l.step label = some o) : Changes l label o.2 o.1.records := by
  cases step_acts h with
  | look w fresh drawn known =>
      have hrecords : (l.forget w.call).records = l.records := rfl
      exact attempt_changes hrecords w fresh drawn
  | leave waiting fewer events quiet => exact Changes.keep events quiet
  | remove key token timers fewer held frees => exact Changes.free key token held frees
  | pass timers fewer now events quiet => exact Changes.keep events quiet

/-- A timer starts with the grant of its token and key, and a look at a key starts no other. -/
theorem attempt_timers {l : Locker τ} {w : Waiter τ} {fresh : τ} {timer : Timer τ}
    (h : timer ∈ (l.attempt w fresh).1.timers) :
    timer ∈ l.timers ∨ ∃ call, .granted call timer.key timer.owner ∈ (l.attempt w fresh).2 := by
  unfold Locker.attempt at h ⊢
  split at h
  · unfold Locker.grant at h
    dsimp only at h
    split at h
    · rcases List.mem_cons.mp h with rfl | h
      · exact Or.inr ⟨w.call, List.mem_cons_self⟩
      · exact Or.inl h
    · exact Or.inl h
  · split at h
    · exact Or.inl h
    · exact Or.inl h

theorem step_timers [DecidableEq τ] {l : Locker τ} {label : Label τ}
    {o : Locker τ × List (Event τ)} (h : l.step label = some o) {timer : Timer τ}
    (htimer : timer ∈ o.1.timers) :
    timer ∈ l.timers ∨ ∃ call, .granted call timer.key timer.owner ∈ o.2 := by
  cases step_acts h with
  | look w fresh drawn known => exact attempt_timers htimer
  | leave waiting fewer events quiet => exact Or.inl htimer
  | remove key token timers fewer held frees => exact Or.inl (fewer.subset htimer)
  | pass timers fewer now events quiet => exact Or.inl (fewer.subset htimer)

/-- A timer's token has been granted for the timer's key. -/
theorem Run.timer_granted [DecidableEq τ] {l : Locker τ} {labels : List (Label τ)}
    {history : List (Event τ)} (run : Run l labels history) :
    ∀ timer ∈ l.timers, ∃ call, .granted call timer.key timer.owner ∈ history := by
  induction run with
  | start => exact fun timer htimer => absurd htimer List.not_mem_nil
  | next run fresh hstep ih =>
      intro timer htimer
      rcases step_timers hstep htimer with hold | ⟨call, hnew⟩
      · obtain ⟨call, hcall⟩ := ih timer hold
        exact ⟨call, List.mem_append_left _ hcall⟩
      · exact ⟨call, List.mem_append_right _ hnew⟩

/-- A grant that has not been taken back. -/
def Stands (history : List (Event τ)) (key : String) (token : τ) : Prop :=
  ∃ before call after, history = before ++ .granted call key token :: after ∧
    .removed key token ∉ after

section Stands

theorem stands_nil (key : String) (token : τ) : ¬ Stands [] key token := by
  rintro ⟨before, call, after, h, -⟩
  simp at h

/-- What happens last is a grant, or leaves the earlier ones standing unless it removes one. -/
theorem stands_snoc (history : List (Event τ)) (e : Event τ) (key : String) (token : τ) :
    Stands (history ++ [e]) key token ↔
      (∃ call, e = .granted call key token) ∨
        Stands history key token ∧ e ≠ .removed key token := by
  constructor
  · rintro ⟨before, call, after, h, hnot⟩
    rcases List.eq_nil_or_concat after with rfl | ⟨rest, last, rfl⟩
    · obtain ⟨-, he⟩ := List.append_inj' h rfl
      exact Or.inl ⟨call, List.cons.inj he |>.1⟩
    · rw [List.concat_eq_append, ← List.cons_append, ← List.append_assoc] at h
      rw [List.concat_eq_append] at hnot
      obtain ⟨hhistory, he⟩ := List.append_inj' h rfl
      obtain ⟨rfl, -⟩ := List.cons.inj he
      refine Or.inr ⟨⟨before, call, rest, hhistory, ?_⟩, ?_⟩
      · exact fun h => hnot (List.mem_append_left [e] h)
      · rintro rfl
        exact hnot (List.mem_append_right rest (List.mem_singleton.mpr rfl))
  · rintro (⟨call, rfl⟩ | ⟨⟨before, call, after, rfl, hnot⟩, hne⟩)
    · exact ⟨history, call, [], rfl, List.not_mem_nil⟩
    · refine ⟨before, call, after ++ [e], by simp, ?_⟩
      rw [List.mem_append, List.mem_singleton, not_or]
      exact ⟨hnot, Ne.symm hne⟩

theorem stands_quiet {history events : List (Event τ)} (h : ∀ e ∈ events, e.Quiet) (key : String)
    (token : τ) : Stands (history ++ events) key token ↔ Stands history key token := by
  induction events generalizing history with
  | nil => rw [List.append_nil]
  | cons e rest ih =>
      have hrest : ∀ x ∈ rest, x.Quiet := fun x hx => h x (List.mem_cons_of_mem e hx)
      have he : e.Quiet := h e List.mem_cons_self
      rw [← List.singleton_append, ← List.append_assoc, ih hrest, stands_snoc]
      constructor
      · rintro (⟨call, rfl⟩ | ⟨hstands, -⟩)
        · exact he.elim
        · exact hstands
      · intro hstands
        refine Or.inr ⟨hstands, ?_⟩
        rintro rfl
        exact he

end Stands

/-- Records that are the grants that stand, with no key in two of them. -/
structure Recorded (records : List (String × τ)) (history : List (Event τ)) : Prop where
  keys_nodup : (records.map Prod.fst).Nodup
  mem_iff : ∀ key token, (key, token) ∈ records ↔ Stands history key token

theorem holder?_eq_some {l : Locker τ} (h : (l.records.map Prod.fst).Nodup) {key : String}
    {token : τ} : l.holder? key = some token ↔ (key, token) ∈ l.records := by
  rw [Locker.holder?, lookup_eq_some_iff_mem h]

/-- Records stay the grants that stand whatever a step does. -/
theorem Changes.recorded {l : Locker τ} {label : Label τ} {events history : List (Event τ)}
    {records : List (String × τ)} (h : Changes l label events records)
    (hrec : Recorded l.records history) : Recorded records (history ++ events) := by
  obtain ⟨hnodup, hmem⟩ := hrec
  cases h with
  | take call key token free drawn =>
      have hnew : key ∉ l.records.map Prod.fst := by
        rw [Locker.holder?, List.lookup_eq_none_iff] at free
        intro hkey
        obtain ⟨r, hr, rfl⟩ := List.mem_map.mp hkey
        simpa using free r hr
      constructor
      · exact List.nodup_cons.mpr ⟨hnew, hnodup⟩
      · intro k t
        rw [List.mem_cons, hmem, stands_snoc]
        constructor
        · rintro (heq | hstands)
          · obtain ⟨rfl, rfl⟩ := Prod.mk.inj heq
            exact Or.inl ⟨call, rfl⟩
          · exact Or.inr ⟨hstands, nofun⟩
        · rintro (⟨c, heq⟩ | ⟨hstands, -⟩)
          · obtain ⟨-, rfl, rfl⟩ := Event.granted.inj heq
            exact Or.inl rfl
          · exact Or.inr hstands
  | free key token held frees =>
      constructor
      · exact hnodup.sublist (List.filter_sublist.map Prod.fst)
      · intro k t
        -- The key had one grant that stood, so no other is lost with it.
        have honly (hstands : Stands history key t) : t = token := by
          have hother := (holder?_eq_some hnodup).mpr ((hmem key t).mpr hstands)
          rw [held] at hother
          exact (Option.some.inj hother).symm
        rw [List.mem_filter, hmem, stands_snoc, decide_eq_true_eq]
        constructor
        · rintro ⟨hstands, hne⟩
          refine Or.inr ⟨hstands, ?_⟩
          intro heq
          exact hne (Event.removed.inj heq).1.symm
        · rintro (⟨c, heq⟩ | ⟨hstands, hne⟩)
          · cases heq
          · refine ⟨hstands, ?_⟩
            rintro rfl
            exact hne (by rw [honly hstands])
  | keep events quiet =>
      exact ⟨hnodup, fun k t => by rw [hmem, stands_quiet quiet]⟩

theorem Run.recorded [DecidableEq τ] {l : Locker τ} {labels : List (Label τ)}
    {history : List (Event τ)}
    (run : Run l labels history) : Recorded l.records history := by
  induction run with
  | start => exact ⟨List.nodup_nil, fun k t => by simp [stands_nil]⟩
  | next run fresh hstep ih => exact (step_changes hstep).recorded ih

theorem told_sublist {seen more : List (Moment τ)} (h : more.Sublist seen) :
    (told more).Sublist (told seen) := h.flatMap Moment.events

/-- A token that is new stays so when less was granted. -/
theorem fresh_sublist {label : Label τ} {seen more : List (Moment τ)}
    (fresh : Fresh label (told seen)) (h : more.Sublist seen) : Fresh label (told more) :=
  fun token drawn hgranted => fresh token drawn (((told_sublist h).filterMap _).subset hgranted)

/-- No token is granted twice. -/
theorem Run.granted_nodup [DecidableEq τ] {l : Locker τ} {labels : List (Label τ)}
    {history : List (Event τ)}
    (run : Run l labels history) : (granted history).Nodup := by
  induction run with
  | start => exact List.nodup_nil
  | @next l m labels history events label run fresh hstep ih =>
      have hgranted : granted (history ++ events) = granted history ++ granted events :=
        List.filterMap_append
      rw [hgranted]
      have hchanges := step_changes hstep
      generalize m.records = records at hchanges
      cases hchanges with
      | take call key token free drawn =>
          have hnew := fresh token drawn
          exact ih.append (List.nodup_singleton token) (List.disjoint_singleton.mpr hnew)
      | free key token held frees => simpa [granted] using ih
      | keep _ quiet =>
          have hnone : granted events = [] := by
            refine List.filterMap_eq_nil_iff.mpr fun e he => ?_
            have hquiet := quiet e he
            cases e with
            | granted | removed => exact hquiet.elim
            | failed | waits | refused => rfl
          rw [hnone, List.append_nil]
          exact ih

theorem Changes.alone {l : Locker τ} {label : Label τ} {events : List (Event τ)}
    {records : List (String × τ)} (h : Changes l label events records) {e : Event τ}
    (hmem : e ∈ events) (he : ¬ e.Quiet) : events = [e] := by
  cases h with
  | take | free => rw [List.mem_singleton.mp hmem]
  | keep _ quiet => exact absurd (quiet e hmem) he

/-- A grant or a removal happened in a step of its own, in a run that had come to what was before
it. -/
theorem Run.origin [DecidableEq τ] {l : Locker τ} {labels : List (Label τ)}
    {history before after : List (Event τ)}
    {e : Event τ} (run : Run l labels history) (h : history = before ++ e :: after)
    (he : ¬ e.Quiet) :
    ∃ q done label rest records, Run q done before ∧ labels = done ++ label :: rest ∧
      Changes q label [e] records := by
  induction run generalizing after with
  | start => simp at h
  | @next l m labels history events label run fresh hstep ih =>
      have hlast (front : List (Event τ)) (hbefore : before = history ++ front)
          (hevents : events = front ++ e :: after) :
          ∃ q done first rest records, Run q done before ∧
            labels ++ [label] = done ++ first :: rest ∧ Changes q first [e] records := by
        have hchanges := step_changes hstep
        have hone : events = [e] := hchanges.alone (by simp [hevents]) he
        have hfront : front = [] := by
          have hlength := congrArg List.length hevents
          simp only [hone, List.length_append, List.length_cons, List.length_nil] at hlength
          exact List.length_eq_zero_iff.mp (by omega)
        rw [hfront, List.append_nil] at hbefore
        rw [hbefore, ← hone]
        exact ⟨l, labels, label, [], m.records, run, rfl, hchanges⟩
      rcases List.append_eq_append_iff.mp h with ⟨front, hbefore, hevents⟩ | ⟨rest, hpast, hrest⟩
      · exact hlast front hbefore hevents
      · cases rest with
        | nil => exact hlast [] (by rw [hpast]; simp) hrest.symm
        | cons y rest =>
            obtain ⟨rfl, -⟩ := List.cons.inj hrest
            obtain ⟨q, done, first, later, records, hrun, hlabels, hchanges⟩ := ih hpast
            refine ⟨q, done, first, later ++ [label], records, hrun, ?_, hchanges⟩
            rw [hlabels, List.append_assoc, List.cons_append]

end Coordination.Lock
