import Coordination.Manager.Run
import Coordination.Proofs.Keyed
import Coordination.Simulation.World.Command

/-!
A site of the world with the record it reports to, seen as an attached pool. The world keeps pools
and records apart and names the tokens of crews by the site; apart from these names, the steps of
the site, of its watchers and of administrators are those of the attached pool. So what holds of an
attached pool holds of such a site, as long as nobody else writes to its record.
-/

namespace Coordination

namespace Manager

variable {τ σ α : Type} (f : τ → σ)

/-- A batch whose token goes by another name. -/
def Batch.map (b : Batch τ) : Batch σ := ⟨b.id, b.count, f b.token, b.lifetime, b.flusher⟩

namespace BatchTable

def map (t : BatchTable τ) : BatchTable σ := ⟨t.counter, t.batches.map (Batch.map f)⟩

theorem batch?_map (t : BatchTable τ) (id : Nat) :
    (t.map f).batch? id = (t.batch? id).map (Batch.map f) := by
  simp only [batch?, map, List.find?_map]
  rfl

theorem register_map (t : BatchTable τ) (count : Nat) (token : τ) (lifetime : Option Duration)
    (flusher : Bool) :
    (t.map f).register count (f token) lifetime flusher =
      ((t.register count token lifetime flusher).1.map f,
        (t.register count token lifetime flusher).2) := by
  simp [register, map, Batch.map]

theorem forget_map (t : BatchTable τ) (id : Nat) :
    (t.map f).forget id = ((t.forget id).1.map f, (t.forget id).2.map f) := by
  simp only [forget, batch?_map, Option.map_map]
  simp only [map, List.filter_map]
  rfl

theorem exited_map (t : BatchTable τ) (id : Nat) :
    (t.map f).exited id = ((t.exited id).1.map f, (t.exited id).2.map f) := by
  unfold exited
  rw [batch?_map]
  cases t.batch? id with
  | none => rfl
  | some b =>
      by_cases hlast : b.count ≤ 1
      · simp only [Option.map_some, Batch.map, hlast, if_true]
        exact forget_map f t id
      · simp only [Option.map_some, Batch.map, hlast, if_false, map, List.map_map, Option.map_none,
          Prod.mk.injEq, BatchTable.mk.injEq, true_and, and_true]
        refine List.map_congr_left fun c _ => ?_
        by_cases hid : c.id = id <;> simp [Batch.map, hid]

end BatchTable

namespace Ledger

def map (l : Ledger τ) : Ledger σ := ⟨l.table.map f, l.links⟩

theorem note_map (name : Nat → τ) (l : Ledger τ) (e : Pool.Event α) :
    (l.map f).note (f ∘ name) e = ((l.note name e).1.map f, (l.note name e).2.map f) := by
  cases e with
  | crewStarted crew count lifetime =>
      simp only [note, map, Function.comp, BatchTable.register_map, List.map_nil]
  | exited worker crew =>
      have hlink : (l.map f).link? crew = l.link? crew := rfl
      simp only [note, hlink]
      cases l.link? crew with
      | none => rfl
      | some k =>
          simp only [map, BatchTable.exited_map]
          cases (l.table.exited k.batch).2 <;> rfl
  | _ => rfl

theorem noteAll_map (name : Nat → τ) (l : Ledger τ) (events : List (Pool.Event α)) :
    (l.map f).noteAll (f ∘ name) events =
      ((l.noteAll name events).1.map f, (l.noteAll name events).2.map f) := by
  induction events generalizing l with
  | nil => rfl
  | cons e events ih => simp only [noteAll, note_map, ih, List.map_append]

theorem watch_map (p : Pool α) (l : Ledger τ) (crew : Nat) :
    (l.map f).watch p crew =
      (l.watch p crew).map fun next => (next.1.map f, next.2.map f) := by
  unfold watch
  have hlinks : (l.map f).links = l.links := rfl
  rw [hlinks]
  split
  · rfl
  · rename_i k hk
    split
    · simp only [map, BatchTable.forget_map, Option.map_some]
      cases (l.table.forget k.batch).2 <;> rfl
    · rfl

end Ledger

end Manager

namespace Simulation.World

open Manager (Attached Ledger BatchTable)

/-- A site and its desk show a record whose tokens are crew numbers. -/
structure Shows (w : World) (k : Nat) (s : Site) (d : Desk) (l : Ledger Nat) : Prop where
  site : w.sites[k]? = some s
  desk : s.reportsTo.bind w.desk? = some d
  ledger : (⟨d.table, s.links⟩ : Ledger Signal) = l.map (Signal.crew k)

section Parts

variable {w : World} {k : Nat} {s : Site} {d : Desk} {l : Ledger Nat}

theorem Shows.lt (h : Shows w k s d l) : k < w.sites.length :=
  (List.getElem?_eq_some_iff.mp h.site).1

theorem Shows.setPool (h : Shows w k s d l) (pool : Pool Item) :
    Shows (w.setSite k { s with pool }) k { s with pool } d l :=
  ⟨List.getElem?_set_self h.lt, h.desk, h.ledger⟩

theorem Shows.setLinks (h : Shows w k s d l) (links : List Manager.Link) :
    Shows (w.setSite k { s with links }) k { s with links } d { l with links } := by
  refine ⟨List.getElem?_set_self h.lt, h.desk, ?_⟩
  rw [(Ledger.mk.inj h.ledger).1]
  rfl

theorem desk?_id {id : Nat} (h : w.desk? id = some d) : d.record.id = id :=
  (mem_of_find?_key h).2

theorem desk?_setTable (w : World) (id : Nat) (table : BatchTable Signal) :
    (w.setTable id table).desk? id = (w.desk? id).map fun d => { d with table } := by
  have hsame : ((fun d : Desk => decide (d.record.id = id)) ∘
      fun d => if d.record.id = id then { d with table } else d) =
        fun d => decide (d.record.id = id) := by
    funext d
    by_cases hid : d.record.id = id <;> simp [hid]
  simp only [desk?, World.setTable, List.find?_map, hsame]
  refine Option.map_congr fun d hd => ?_
  exact if_pos (desk?_id hd)

theorem Shows.setTable (h : Shows w k s d l) (table : BatchTable Nat) :
    Shows (w.setTable d.record.id (table.map (.crew k))) k s
      { d with table := table.map (.crew k) } { l with table } := by
  refine ⟨h.site, ?_, ?_⟩
  · obtain ⟨id, hid, hfound⟩ := Option.bind_eq_some_iff.mp h.desk
    obtain rfl := desk?_id hfound
    rw [hid, Option.bind_some, desk?_setTable, hfound]
    rfl
  · rw [(Ledger.mk.inj h.ledger).2]
    rfl

theorem Shows.fireAll (h : Shows w k s d l) (fired : List Nat) :
    Shows (w.fireAll (fired.map (.crew k))) k
      { s with pool := Attached.fire s.pool fired } d l := by
  induction fired generalizing w s with
  | nil => exact h
  | cons crew fired ih =>
      have hfire : w.fire (.crew k crew) = w.setSite k { s with pool := s.pool.stopCrew crew } := by
        simp only [fire, h.site]
      have hnext : Shows (w.fire (.crew k crew)) k { s with pool := s.pool.stopCrew crew } d l := by
        rw [hfire]
        exact h.setPool (s.pool.stopCrew crew)
      exact ih hnext

theorem Shows.startCalls (h : Shows w k s d l) (t : Site) (events : List (Pool.Event Item)) :
    Shows (w.startCalls k t events) k s d l := by
  induction events generalizing w with
  | nil => exact h
  | cons e events ih =>
      apply ih
      cases e with
      | called worker batch last => exact ⟨h.site, h.desk, h.ledger⟩
      | _ => exact h

/-- What a record answers reaches the site. -/
theorem Shows.answered (h : Shows w k s d l) (next : Ledger Nat × List Nat) :
    Shows
      (((w.setTable d.record.id (next.1.table.map (.crew k))).setSite k
        { s with links := next.1.links }).fireAll (next.2.map (.crew k))) k
      { s with pool := Attached.fire s.pool next.2, links := next.1.links }
      { d with table := next.1.table.map (.crew k) } next.1 :=
  ((h.setTable next.1.table).setLinks next.1.links).fireAll next.2

theorem Shows.reportEvents (h : Shows w k s d l) (events : List (Pool.Event Item)) :
    Shows (w.reportEvents k s events) k
      { s with
        pool := Attached.fire s.pool (l.noteAll id events).2
        links := (l.noteAll id events).1.links }
      { d with table := (l.noteAll id events).1.table.map (.crew k) } (l.noteAll id events).1 := by
  have hnoted : (⟨d.table, s.links⟩ : Ledger Signal).noteAll (Signal.crew k) events =
      ((l.noteAll id events).1.map (.crew k), (l.noteAll id events).2.map (.crew k)) := by
    rw [h.ledger]
    exact Ledger.noteAll_map (Signal.crew k) id l events
  simp only [World.reportEvents, h.desk, hnoted]
  exact h.answered (l.noteAll id events)

end Parts

/-- A site and the record that it reports to are this attached pool, but for the names of tokens. -/
def Mirrors (w : World) (k : Nat) (a : Attached Item) : Prop :=
  ∃ s d l, Shows w k s d l ∧ a = ⟨s.pool, some l⟩

variable {w w' : World} {k : Nat} {a : Attached Item}

/-- A pool that is made to report to a new record is attached before its first worker. -/
theorem makePool_mirrors (w : World) (label : String) (config : Pool.Config) (handler : Handler)
    {r : Registration} (reports : r.reports = true)
    (fresh : ∀ d ∈ w.desks, d.record.id ≠ w.manager.counter + 1) :
    Mirrors (w.makePool label config handler (some r)).1 w.sites.length
      (Attached.attach (Pool.new config w.now wordBytes)) := by
  let record := (w.manager.add ⟨r.name, r.kind, r.exemplar, r.configuration⟩).2
  let desk : Desk := { record, site := w.sites.length }
  have hnone : w.desks.find? (fun d => d.record.id = record.id) = none :=
    List.find?_eq_none.mpr fun d hd => by simp [record, Manager.Directory.add, fresh d hd]
  refine ⟨_, desk, { table := {}, links := [] }, ⟨List.getElem?_concat_length, ?_, rfl⟩, rfl⟩
  simp only [reports, if_true, Option.bind_some]
  change (w.desks ++ [desk]).find? (fun d => d.record.id = record.id) = some desk
  rw [List.find?_append, hnone]
  simp [desk]

/-- A step of the site's pool is one of the attached pool. -/
theorem siteStep_mirrors (h : Mirrors w k a) {label : Pool.Label Item}
    {events : List (Pool.Event Item)} (hstep : w.siteStep k label = some (w', events)) :
    ∃ b, a.step (.pool label) = some (b, events) ∧ Mirrors w' k b := by
  obtain ⟨s, d, l, hshows, rfl⟩ := h
  simp only [siteStep, hshows.site] at hstep
  split at hstep
  · cases hstep
  · rename_i pool told hpool
    obtain ⟨rfl, rfl⟩ := Prod.mk.inj (Option.some.inj hstep)
    have hreported := (hshows.setPool pool).reportEvents told
    refine ⟨_, congrArg (Option.map _) hpool, ?_⟩
    exact ⟨_, _, _, hreported.startCalls { s with pool } told, rfl⟩

/-- What an administrator does to the record is a step of the attached pool. -/
theorem tellTable_mirrors (h : Mirrors w k a) {s : Site} {d : Desk} (hsite : w.sites[k]? = some s)
    (hdesk : s.reportsTo.bind w.desk? = some d) (batch : Nat) :
    ∃ b, a.step (.cancelBatch batch) = some (b, []) ∧
      Mirrors (w.tellTable d (.cancel batch)).1 k b := by
  obtain ⟨t, e, l, hshows, rfl⟩ := h
  obtain rfl := Option.some.inj (hsite.symm.trans hshows.site)
  obtain rfl := Option.some.inj (hdesk.symm.trans hshows.desk)
  have hforgotten : d.table.forget batch =
      ((l.table.forget batch).1.map (.crew k), (l.table.forget batch).2.map (.crew k)) := by
    rw [(Ledger.mk.inj hshows.ledger).1]
    exact BatchTable.forget_map (Signal.crew k) l.table batch
  have hanswered :=
    (hshows.setTable (l.table.forget batch).1).fireAll (l.table.forget batch).2.toList
  simp only [World.tellTable, BatchTable.step, hforgotten, Option.toList_map]
  exact ⟨_, rfl, _, _, _, hanswered, rfl⟩

/-- A watcher that runs in the world runs at some site, and its step is one of the attached pool. -/
theorem watch?_mirrors (h : w.watch? = some w') :
    ∃ k, ∀ a, Mirrors w k a → ∃ crew b, a.step (.watch crew) = some (b, []) ∧ Mirrors w' k b := by
  obtain ⟨⟨s, k⟩, hmem, hsite⟩ := List.exists_of_findSome?_eq_some h
  refine ⟨k, ?_⟩
  rintro a ⟨t, d, l, hshows, rfl⟩
  have hs : w.sites[k]? = some s := List.mem_zipIdx_iff_getElem?.mp hmem
  obtain rfl : t = s := Option.some.inj (hshows.site.symm.trans hs)
  simp only [hshows.desk] at hsite
  obtain ⟨link, -, hlink⟩ := List.exists_of_findSome?_eq_some hsite
  rw [hshows.ledger, Ledger.watch_map, Option.map_map] at hlink
  obtain ⟨next, hnext, rfl⟩ := Option.map_eq_some_iff.mp hlink
  refine ⟨link.crew, _, congrArg (Option.map _) hnext, ?_⟩
  exact ⟨_, _, _, hshows.answered next, rfl⟩

end Simulation.World

end Coordination
