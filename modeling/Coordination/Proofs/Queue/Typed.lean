import Coordination.Item
import Coordination.Queue.Typed
import Coordination.Proofs.Pool.Abandoned

/-!
Typed queues drop nothing. The door of a typed queue lets items of its kind in and turns all others
away, so a run of the queue is a run of its pool in which only such items have been pushed. Where an
item goes in the pool it stays the same, and what the handler finds in a batch is all of its kind:
the branch in which the handler would drop an item is never taken.
-/

namespace Coordination

open Pool (Label Entry pushedItems)

namespace Exemplar

variable {ι κ : Type} [DecidableEq κ]

theorem check_of_eq {x : Exemplar ι κ} (queue : String) {item : ι} (h : x.kindOf item = x.kind) :
    x.check queue item = .ok () := if_pos (decide_eq_true h)

theorem check_of_ne {x : Exemplar ι κ} (queue : String) {item : ι} (h : x.kindOf item ≠ x.kind) :
    x.check queue item = .error ⟨queue, x.kind, x.kindOf item⟩ := by
  have hrefused : ¬ x.accepts item = true := by simpa [accepts] using h
  exact if_neg hrefused

/-- Of items of its kind a typed handler gets all, in their order. -/
theorem receive_eq {x : Exemplar ι κ} {batch : List ι}
    (h : ∀ item ∈ batch, x.kindOf item = x.kind) :
    (x.receive batch).map Subtype.val = batch := by
  induction batch with
  | nil => rfl
  | cons item batch ih =>
      have hitem : x.cast? item = some ⟨item, h item List.mem_cons_self⟩ :=
        dif_pos (h item List.mem_cons_self)
      have hbatch := ih fun other hother => h other (List.mem_cons_of_mem _ hother)
      rw [receive] at hbatch ⊢
      rw [List.filterMap_cons_some hitem, List.map_cons, hbatch]

end Exemplar

namespace Queue.Typed

variable {ι κ : Type}

section Step

variable [DecidableEq κ] {q r : Typed ι κ} {label : Label ι} {events : List (Event ι κ)}

/-- The door lets a step pass that pushes nothing or an item of the kind. -/
theorem mismatch?_eq_none_iff : q.mismatch? label = none ↔
    ∀ item ∈ label.item?, q.exemplar.kindOf item = q.exemplar.kind := by
  unfold mismatch?
  cases hitem : label.item? with
  | none => simp
  | some item =>
      by_cases hkind : q.exemplar.kindOf item = q.exemplar.kind
      · simp [Exemplar.check_of_eq q.name hkind, hkind]
      · simp [Exemplar.check_of_ne q.name hkind, hkind]

/-- What a step of a queue does: the door turns it away and nothing else happens, or it is a step of
the pool, and if it pushes an item, the item is of the kind. -/
inductive Acts (q : Typed ι κ) (label : Label ι) : Typed ι κ × List (Event ι κ) → Prop where
  | turnAway (mismatch : Exemplar.Mismatch κ) (foreign : q.mismatch? label = some mismatch) :
    Acts q label (q, [.turnedAway mismatch])
  | pass (fits : ∀ item ∈ label.item?, q.exemplar.kindOf item = q.exemplar.kind) {pool : Pool ι}
    {told : List (Pool.Event ι)} (takes : q.pool.step label = some (pool, told)) :
    Acts q label ({ q with pool }, told.map .pool)

theorem step_acts (h : q.step label = some (r, events)) : Acts q label (r, events) := by
  unfold step at h
  split at h
  · rename_i mismatch hforeign
    obtain ⟨rfl, rfl⟩ := Prod.mk.inj (Option.some.inj h)
    exact Acts.turnAway mismatch hforeign
  · rename_i hfits
    split at h
    · cases h
    · rename_i pool told htakes
      obtain ⟨rfl, rfl⟩ := Prod.mk.inj (Option.some.inj h)
      exact Acts.pass (mismatch?_eq_none_iff.mp hfits) htakes

end Step

def Event.pool? : Event ι κ → Option (Pool.Event ι)
  | .pool event => some event
  | .turnedAway _ => none

def poolHistory (history : List (Nat × Event ι κ)) : List (Nat × Pool.Event ι) :=
  history.filterMap fun h => h.2.pool?.map fun event => (h.1, event)

theorem mem_poolHistory {history : List (Nat × Event ι κ)} {t : Nat} {event : Pool.Event ι}
    (h : (t, .pool event) ∈ history) : (t, event) ∈ poolHistory history :=
  List.mem_filterMap.mpr ⟨(t, .pool event), h, rfl⟩

theorem poolHistory_append (h k : List (Nat × Event ι κ)) :
    poolHistory (h ++ k) = poolHistory h ++ poolHistory k := List.filterMap_append ..

theorem poolHistory_pool (now : Nat) (told : List (Pool.Event ι)) :
    poolHistory ((told.map .pool).map fun e => (now, (e : Event ι κ))) = Pool.stamp now told := by
  induction told with
  | nil => rfl
  | cons event told ih => exact congrArg ((now, event) :: ·) ih

section Run

variable [DecidableEq κ] {name : String} {x : Exemplar ι κ} {config : Pool.Config} {q : Typed ι κ}
  {labels : List (Label ι)} {history : List (Nat × Event ι κ)}

/-- A run of a queue, without what the door turned away, is a run of its pool, in which items of the
kind have been pushed and no others. -/
theorem Run.pool_run (run : Run name x config q labels history) :
    q.name = name ∧ q.exemplar = x ∧ ∃ passed, Pool.Run config Pool.AnyStep q.pool passed
      (poolHistory history) ∧ ∀ item ∈ pushedItems passed, x.kindOf item = x.kind := by
  induction run with
  | start now itemBytes =>
      exact ⟨rfl, rfl, [], Pool.Run.start now itemBytes, by simp [pushedItems]⟩
  | @next q r labels history label events run hstep ih =>
      obtain ⟨hname, hexemplar, passed, hrun, hkind⟩ := ih
      rw [poolHistory_append]
      cases step_acts hstep with
      | turnAway mismatch foreign =>
          refine ⟨hname, hexemplar, passed, ?_, hkind⟩
          simpa [poolHistory, Event.pool?] using hrun
      | @pass fits pool told takes =>
          rw [poolHistory_pool]
          refine ⟨hname, hexemplar, passed ++ [label], Pool.Run.next hrun trivial takes, ?_⟩
          intro item hitem
          rw [pushedItems, List.filterMap_append, List.mem_append] at hitem
          rcases hitem with hold | hnew
          · exact hkind item hold
          · obtain ⟨l, hl, heq⟩ := List.mem_filterMap.mp hnew
            obtain rfl := List.mem_singleton.mp hl
            exact hexemplar ▸ fits item heq

/-- Whatever is in sight in the pool of a queue is of the kind: what waits, what is in the buffer,
what workers hold, and what has been handed to the handler. -/
theorem Run.kind_of_seen (run : Run name x config q labels history) {e : Entry ι}
    (he : e ∈ Pool.seen (Pool.tidings (poolHistory history)) q.pool.flow) :
    x.kindOf e.item = x.kind := by
  obtain ⟨-, -, passed, hrun, hkind⟩ := run.pool_run
  have hitem := hrun.owned.owned e he
  exact hkind e.item (List.mem_of_getElem? hitem)

/-- Typed queues are type-safe and drop nothing. Whatever items are pushed through a queue and
whatever else happens to it: every item that waits for room, is in the buffer, in what a worker
holds or in a handler call is of the kind that the queue accepts; a push of an item of another kind
returns a mismatch that names the queue, its kind and that of the item, and leaves the queue and
its pool as they are; any other push is a push on the pool; and in every handler call the handler
gets all items of the batch, in their order. -/
theorem typed_queue_drops_nothing (run : Run name x config q labels history) :
    (∀ e ∈ q.pool.blocked.map Pool.Blocked.entry ++ q.pool.buffer ++ q.pool.batches ++
      q.pool.calls, x.kindOf e.item = x.kind) ∧
    (∀ item cancelled, x.kindOf item ≠ x.kind →
      q.step (.push item cancelled) = some (q, [.turnedAway ⟨name, x.kind, x.kindOf item⟩])) ∧
    (∀ item cancelled, x.kindOf item = x.kind →
      q.step (.push item cancelled) =
        some ({ q with pool := (q.pool.push item cancelled).1 },
          (q.pool.push item cancelled).2.map .pool)) ∧
    (∀ t worker batch last, (t, .pool (.called worker batch last)) ∈ history →
      (x.receive (batch.map Entry.item)).map Subtype.val = batch.map Entry.item) := by
  obtain ⟨rfl, rfl, passed, hrun, -⟩ := run.pool_run
  have hhanded (e : Entry ι) (he : e ∈ Pool.handed (poolHistory history)) :
      q.exemplar.kindOf e.item = q.exemplar.kind :=
    run.kind_of_seen (Multiset.mem_add.mpr (Or.inr he))
  refine ⟨?_, ?_, ?_, ?_⟩
  · intro e he
    rw [List.mem_append, List.mem_append, List.mem_append] at he
    rcases he with ((hwaits | hbuffer) | hheld) | hcall
    · exact run.kind_of_seen (Multiset.mem_add.mpr (Or.inl (Multiset.mem_add.mpr (Or.inl
        (Multiset.mem_add.mpr (Or.inl hwaits))))))
    · exact run.kind_of_seen (Multiset.mem_add.mpr (Or.inl (Multiset.mem_add.mpr (Or.inl
        (Multiset.mem_add.mpr (Or.inr hbuffer))))))
    · exact run.kind_of_seen (Multiset.mem_add.mpr (Or.inl (Multiset.mem_add.mpr (Or.inr hheld))))
    · exact hhanded e (hrun.handed_perm.mem_iff.mp (List.mem_append_left _ hcall))
  · intro item cancelled hother
    simp only [step, mismatch?, Label.item?, Exemplar.check_of_ne q.name hother]
  · intro item cancelled hkind
    have hpass : q.mismatch? (.push item cancelled) = none := by
      rw [mismatch?_eq_none_iff]
      intro other hitem
      obtain rfl := Option.some.inj hitem
      exact hkind
    rw [step, hpass]
    rfl
  · intro t worker batch last hcalled
    apply Exemplar.receive_eq
    intro item hitem
    obtain ⟨e, he, rfl⟩ := List.mem_map.mp hitem
    apply hhanded e
    exact List.mem_flatMap.mpr ⟨_, mem_poolHistory hcalled, he⟩

end Run

/-- A boxed mail and a number are pushed through a queue of mails, between mails of which the last
has to wait. -/
def mailSteps : List (Label Item) :=
  [.push (.mail "Mail" "ada") false, .push (.boxedMail "Mail" "bob") false, .addWorkers 1 none,
    .work 0, .push (.word64 7) true, .push (.mail "Mail" "cyd") false,
    .push (.mail "Mail" "dot") false, .work 0]

theorem typed_queue_drops_nothing_mail :
    ∃ (q : Typed Item Item.Kind) (history : List (Nat × Event Item Item.Kind)),
    Run "mail" (Item.exemplar (.mail "Mail")) Pool.narrowConfig q mailSteps history ∧
    q.pool.awaiting = [2] ∧
    (0, .turnedAway ⟨"mail", .mail "Mail", .boxedMail "Mail"⟩) ∈ history ∧
    (0, .turnedAway ⟨"mail", .mail "Mail", .word64⟩) ∈ history ∧
    (0, .pool (.called 0 [⟨0, .mail "Mail" "ada"⟩, ⟨1, .mail "Mail" "cyd"⟩] false)) ∈ history ∧
    ((Item.exemplar (.mail "Mail")).receive [.mail "Mail" "ada", .mail "Mail" "cyd"]).map
      Subtype.val = [.mail "Mail" "ada", .mail "Mail" "cyd"] ∧
    q.step (.push (.boxedMail "Mail" "bob") false) =
      some (q, [.turnedAway ⟨"mail", .mail "Mail", .boxedMail "Mail"⟩]) := by
  have run : Run "mail" (Item.exemplar (.mail "Mail")) Pool.narrowConfig _ ([] ++ mailSteps) _ :=
    (Run.start 0 Item.bytes).replay rfl
  obtain ⟨-, hforeign, -, hcalls⟩ := typed_queue_drops_nothing run
  have hcalled := hcalls 0 0 [⟨0, .mail "Mail" "ada"⟩, ⟨1, .mail "Mail" "cyd"⟩] false (by decide)
  exact ⟨_, _, run, by decide, by decide, by decide, by decide, hcalled,
    hforeign (.boxedMail "Mail" "bob") false (by decide)⟩

end Queue.Typed

end Coordination
