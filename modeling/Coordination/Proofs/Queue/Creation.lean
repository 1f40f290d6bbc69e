import Mathlib.Data.List.Basic
import Coordination.Item
import Coordination.Queue.Run

/-!
Making queues. With the built-in backend alone, whatever tag the settings name, a queue is refused
for its length or not at all, and then the manager is as it was. Otherwise the manager has one
record more, under the number after the last one. Numbers do not come back, so the record that goes
with a terminated queue is that of this queue, if it is still there.
-/

namespace Coordination

namespace Manager.Directory

variable {d : Directory} {r : Record}

theorem mem_remove {id : Nat} : r ∈ (d.remove id).1.records ↔ r ∈ d.records ∧ r.id ≠ id := by
  simp [remove]

theorem mem_add {a : Application} :
    r ∈ (d.add a).1.records ↔ r ∈ d.records ∨ r = (d.add a).2 := by
  simp [add]

/-- No record has a number that is yet to come. -/
def Old (d : Directory) : Prop := ∀ r ∈ d.records, r.id ≤ d.counter

theorem Old.remove (h : d.Old) (id : Nat) : (d.remove id).1.Old :=
  fun r hr => h r (mem_remove.mp hr).1

theorem Old.add (h : d.Old) (a : Application) : (d.add a).1.Old := by
  intro r hr
  rcases mem_add.mp hr with hr | rfl
  · exact Nat.le_succ_of_le (h r hr)
  · exact Nat.le_refl _

/-- The record is the only one that can have its number, now and later. -/
structure Owns (d : Directory) (r : Record) : Prop where
  old : r.id ≤ d.counter
  alone : ∀ s ∈ d.records, s.id = r.id → s = r

theorem Owns.remove (h : d.Owns r) (id : Nat) : (d.remove id).1.Owns r :=
  ⟨h.old, fun s hs => h.alone s (mem_remove.mp hs).1⟩

theorem Owns.add (h : d.Owns r) (a : Application) : (d.add a).1.Owns r := by
  refine ⟨Nat.le_succ_of_le h.old, fun s hs hid => ?_⟩
  rcases mem_add.mp hs with hs | rfl
  · exact h.alone s hs hid
  · have hnew : (d.add a).2.id = d.counter + 1 := rfl
    have hold := h.old
    omega

theorem Old.owns_add (h : d.Old) (a : Application) : (d.add a).1.Owns (d.add a).2 := by
  refine ⟨Nat.le_refl _, fun s hs hid => ?_⟩
  rcases mem_add.mp hs with hs | rfl
  · have hnew : (d.add a).2.id = d.counter + 1 := rfl
    have hold := h s hs
    omega
  · rfl

end Manager.Directory

namespace Queue

open Manager (Directory Record Application)

variable {κ : Type}

section Create

variable [NamedKind κ] {settings : Settings} (exemplar : κ) (manager : Directory)

/-- What a queue with these settings is recorded as. -/
def recording (settings : Settings) (exemplar : κ) : Application where
  name := some settings.name
  kind := channelTag
  exemplar := NamedKind.typeName exemplar
  configuration := settings.toJson

theorem tagFor_new (registry : Settings.Registry) (settings : Settings) :
    (Service.new registry : Service κ).tagFor settings = channelTag := by
  simp only [Service.tagFor, Backends.resolve, Service.new, Backends.builtIn]
  generalize (if settings.kind = "" then channelTag else settings.kind) = tag
  by_cases htag : tag = channelTag
  · simp [htag]
  · simp [List.lookup_cons, beq_false_of_ne htag]

/-- Whatever tag the settings name, it is the built-in backend that makes the queue. -/
theorem create_new (registry : Settings.Registry) (name : String) :
    (Service.new registry).create name exemplar manager =
      channel (registry.forQueue name) exemplar manager := by
  rw [Service.create, tagFor_new]
  simp [Service.new, Backends.create, Backends.builtIn]

theorem channel_refused (h : settings.length = 0) :
    ∃ reason, channel settings exemplar manager =
      (.error (.invalidConfiguration reason), manager) :=
  ⟨_, if_pos h⟩

theorem channel_made (h : settings.length ≠ 0) : ∃ q : Built κ,
    q.record = (manager.add (recording settings exemplar)).2 ∧
    channel settings exemplar manager = (.ok q, (manager.add (recording settings exemplar)).1) :=
  ⟨_, rfl, if_neg h⟩

end Create

section Run

def Reply.issued? : Reply κ → Option Nat
  | .created (.ok q) => some q.record.id
  | .added record => some record.id
  | .created (.error _) | .terminated | .removed _ => none

/-- The numbers given to records, one after another. -/
def issued (seen : List (Turn κ)) : List Nat := seen.filterMap fun x => x.reply.issued?

theorem issued_snoc (seen : List (Turn κ)) (x : Turn κ) :
    issued (seen ++ [x]) = issued seen ++ x.reply.issued?.toList := by
  rw [issued, List.filterMap_append]
  cases hx : x.reply.issued? <;> simp [issued, hx]

/-- What a call does: it changes nothing, it makes a queue and records it, it takes a record off the
manager, or it records a queue of somebody else. -/
inductive Acts (e : Estate κ) : Estate κ → Reply κ → Prop where
  | stay (reply : Reply κ) (silent : reply.issued? = none) : Acts e e reply
  | make (a : Application) (q : Built κ) (own : q.record = (e.manager.add a).2) :
    Acts e ⟨(e.manager.add a).1, e.queues ++ [q]⟩ (.created (.ok q))
  | remove (id : Nat) (reply : Reply κ) (silent : reply.issued? = none) :
    Acts e { e with manager := (e.manager.remove id).1 } reply
  | add (a : Application) :
    Acts e { e with manager := (e.manager.add a).1 } (.added (e.manager.add a).2)

/-- The numbers on the manager are those that were given out, each for one record. -/
structure Orderly (e : Estate κ) (seen : List (Turn κ)) : Prop where
  numbers : issued seen = List.range' 1 e.manager.counter
  old : e.manager.Old
  owned : ∀ q ∈ e.queues, e.manager.Owns q.record

theorem Orderly.add_numbers {e : Estate κ} {seen : List (Turn κ)} (h : Orderly e seen)
    (a : Application) :
    issued seen ++ [(e.manager.add a).2.id] = List.range' 1 (e.manager.add a).1.counter := by
  have hnew : (e.manager.add a).2.id = 1 + e.manager.counter := Nat.add_comm e.manager.counter 1
  have hcounter : (e.manager.add a).1.counter = e.manager.counter + 1 := rfl
  rw [h.numbers, hnew, hcounter, List.range'_1_concat]

theorem Acts.orderly {e f : Estate κ} {seen : List (Turn κ)} {reply : Reply κ}
    (acts : Acts e f reply) (c : Call κ) (h : Orderly e seen) :
    Orderly f (seen ++ [⟨c, reply⟩]) := by
  cases acts with
  | stay reply silent =>
      refine ⟨?_, h.old, h.owned⟩
      rw [issued_snoc, silent, Option.toList_none, List.append_nil, h.numbers]
  | remove id reply silent =>
      refine ⟨?_, h.old.remove id, fun q hq => (h.owned q hq).remove id⟩
      rw [issued_snoc, silent, Option.toList_none, List.append_nil, h.numbers]
      rfl
  | make a q own =>
      refine ⟨?_, h.old.add a, fun p hp => ?_⟩
      · rw [issued_snoc, ← h.add_numbers a, ← own]
        rfl
      · rcases List.mem_append.mp hp with hp | hp
        · exact (h.owned p hp).add a
        · obtain rfl := List.mem_singleton.mp hp
          rw [own]
          exact h.old.owns_add a
  | add a =>
      refine ⟨?_, h.old.add a, fun q hq => (h.owned q hq).add a⟩
      rw [issued_snoc, ← h.add_numbers a]
      rfl

/-- A queue that was made with a manager takes its own record off it, and no other. -/
theorem Orderly.mem_retire {e : Estate κ} {seen : List (Turn κ)} (h : Orderly e seen) {q : Built κ}
    (hq : q ∈ e.queues) {r : Record} :
    r ∈ (q.retire e.manager).records ↔ r ∈ e.manager.records ∧ r ≠ q.record := by
  rw [Built.retire, Manager.Directory.mem_remove]
  refine and_congr_right fun hr => ?_
  constructor
  · rintro hid rfl
    exact hid rfl
  · intro hne hid
    exact hne ((h.owned q hq).alone r hr hid)

variable [NamedKind κ] {registry : Settings.Registry} {e f : Estate κ} {seen : List (Turn κ)}

theorem call_acts {c : Call κ} {reply : Reply κ}
    (h : (Service.new registry).call e c = some (f, reply)) : Acts e f reply := by
  cases c with
  | create name exemplar =>
      simp only [Service.call, create_new] at h
      by_cases hlength : (registry.forQueue name).length = 0
      · obtain ⟨reason, hrefused⟩ := channel_refused exemplar e.manager hlength
        simp only [hrefused] at h
        obtain ⟨rfl, rfl⟩ := Prod.mk.inj (Option.some.inj h)
        exact .stay _ rfl
      · obtain ⟨q, own, hmade⟩ := channel_made exemplar e.manager hlength
        simp only [hmade] at h
        obtain ⟨rfl, rfl⟩ := Prod.mk.inj (Option.some.inj h)
        exact .make _ q own
  | terminate place =>
      simp only [Service.call] at h
      split at h
      · rename_i q hq
        obtain ⟨rfl, rfl⟩ := Prod.mk.inj (Option.some.inj h)
        exact .remove q.record.id _ rfl
      · cases h
  | remove id =>
      obtain ⟨rfl, rfl⟩ := Prod.mk.inj (Option.some.inj h)
      exact .remove id _ rfl
  | add a =>
      obtain ⟨rfl, rfl⟩ := Prod.mk.inj (Option.some.inj h)
      exact .add a

theorem Service.Run.orderly (run : (Service.new registry).Run e seen) : Orderly e seen := by
  induction run with
  | start => exact ⟨rfl, by simp [Directory.Old], by simp⟩
  | next run hcall ih => exact (call_acts hcall).orderly _ ih

theorem getLast?_numbers (n : Nat) : ((List.range' 1 n).getLast?.getD 0) = n := by
  rw [List.getLast?_range']
  cases n with
  | zero => rfl
  | succ n => simp

/-- All or nothing, whatever was done with the manager before. With the built-in backend a queue is
never refused for its type: it is refused just if its settings have no length, and then the manager
is left as it was. Otherwise the manager has one record more, under the number after the last one
that was ever given out, under the name in the settings or, without one, a name made from the
number, and with the settings as its configuration. And a queue that was made takes its own record
off when it is terminated, if that is still there, and leaves all others. -/
theorem queue_creation_all_or_nothing (run : (Service.new registry).Run e seen) {name : String}
    {exemplar : κ} {made : Except (Error κ) (Built κ)} {manager : Directory}
    (creates : (Service.new registry).create name exemplar e.manager = (made, manager)) :
    (∀ tag, made ≠ .error (.unsupportedType tag)) ∧
    ((∃ error, made = .error error) ↔ (registry.forQueue name).length = 0) ∧
    (∀ error, made = .error error →
      (∃ reason, error = .invalidConfiguration reason) ∧ manager = e.manager) ∧
    (∀ q, made = .ok q →
      q.record.id = (issued seen).getLast?.getD 0 + 1 ∧
      q.record.kind = "channel" ∧
      q.record.name = (if (registry.forQueue name).name = "" then
        "queue-" ++ String.ofList (Nat.toDigits 10 q.record.id)
        else (registry.forQueue name).name) ∧
      q.record.exemplar = NamedKind.typeName exemplar ∧
      q.record.configuration = (registry.forQueue name).toJson ∧
      manager.records = e.manager.records ++ [q.record] ∧ manager.counter = q.record.id) ∧
    issued seen = List.range' 1 e.manager.counter ∧
    (∀ q ∈ e.queues, (q.retire e.manager).counter = e.manager.counter ∧
      (q.retire e.manager).records.Sublist e.manager.records ∧
      ∀ r, r ∈ (q.retire e.manager).records ↔ r ∈ e.manager.records ∧ r ≠ q.record) := by
  have h := run.orderly
  have hretire : ∀ q ∈ e.queues, (q.retire e.manager).counter = e.manager.counter ∧
      (q.retire e.manager).records.Sublist e.manager.records ∧
      ∀ r, r ∈ (q.retire e.manager).records ↔ r ∈ e.manager.records ∧ r ≠ q.record :=
    fun q hq => ⟨rfl, List.filter_sublist, fun r => h.mem_retire hq⟩
  rw [create_new] at creates
  by_cases hlength : (registry.forQueue name).length = 0
  · obtain ⟨reason, hrefused⟩ := channel_refused exemplar e.manager hlength
    obtain ⟨rfl, rfl⟩ := Prod.mk.inj (hrefused.symm.trans creates)
    refine ⟨?_, ?_, ?_, ?_, h.numbers, hretire⟩
    · simp
    · simp [hlength]
    · simp
    · simp
  · obtain ⟨q, own, hmade⟩ := channel_made exemplar e.manager hlength
    obtain ⟨rfl, rfl⟩ := Prod.mk.inj (hmade.symm.trans creates)
    refine ⟨?_, ?_, ?_, ?_, h.numbers, hretire⟩
    · simp
    · simp [hlength]
    · simp
    · rintro p hp
      obtain rfl := Except.ok.inj hp
      rw [h.numbers, getLast?_numbers, own]
      exact ⟨rfl, rfl, rfl, rfl, rfl, rfl, rfl⟩

/-- Queues of a tag that no backend has, one of them without a length. A queue is terminated twice,
and the next one comes without a name. -/
def bareRegistry : Settings.Registry :=
  Settings.Registry.insert { defaults := { kind := "redis" } } { name := "bare", length := 0 }

def bareCalls : List (Call Item.Kind) :=
  [.create "jobs" .word64, .create "bare" (.mail "Mail"), .add ⟨none, "pool", "u64", .null⟩,
    .terminate 0, .terminate 0, .remove 7]

theorem queue_creation_all_or_nothing_unnamed :
    ∃ (e : Estate Item.Kind) (seen : List (Turn Item.Kind)) (q : Built Item.Kind)
      (manager : Directory), (Service.new bareRegistry).Run e seen ∧
      seen.map Turn.call = bareCalls ∧
      (Service.new bareRegistry).create "" (.mail "Mail") e.manager = (.ok q, manager) ∧
      issued seen = [1, 2] ∧ q.record.id = 3 ∧ q.record.name = "queue-3" ∧
      manager.records.map Record.id = [2, 3] := by
  let settings := bareRegistry.forQueue "jobs"
  let jobs : Built Item.Kind :=
    ⟨"jobs", ⟨1, "jobs", "channel", "u64", settings.toJson⟩, settings.poolConfig, 1, .word64⟩
  let e : Estate Item.Kind := ⟨⟨2, [⟨2, "queue-2", "pool", "u64", .null⟩]⟩, [jobs]⟩
  have serves : (Service.new bareRegistry).serve {} bareCalls = some (e, _) := rfl
  have run := Service.Run.start.serve serves
  have creates :
      (Service.new bareRegistry).create "" (Item.Kind.mail "Mail") e.manager = (.ok _, _) := rfl
  obtain ⟨-, -, -, hmade, -⟩ := queue_creation_all_or_nothing run creates
  obtain ⟨hid, -, hname, -, -, hrecords, -⟩ := hmade _ rfl
  refine ⟨e, _, _, _, run, rfl, creates, rfl, hid, hname.trans (by decide), ?_⟩
  rw [hrecords]
  rfl

end Run

end Queue

end Coordination
