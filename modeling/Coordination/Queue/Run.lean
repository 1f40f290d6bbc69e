import Coordination.Queue.Service

/-!
Runs of a queue service. Queues are made and terminated, and whoever knows the manager takes records
off it and puts others on it, in any order.
-/

namespace Coordination.Queue

/-- The manager, and the queues that a service has made with it. A queue stays here when it is
terminated: its owner may terminate it again. -/
structure Estate (κ : Type) where
  manager : Manager.Directory := {}
  queues : List (Built κ) := []

inductive Call (κ : Type) where
  | create (name : String) (exemplar : κ)
  /-- Terminate one of the queues that were made, by its place among them. -/
  | terminate (place : Nat)
  | remove (id : Nat)
  /-- Somebody else records a queue. -/
  | add (application : Manager.Application)

inductive Reply (κ : Type) where
  | created (made : Except (Error κ) (Built κ))
  | terminated
  | removed (record : Option Manager.Record)
  | added (record : Manager.Record)

structure Turn (κ : Type) where
  call : Call κ
  reply : Reply κ

namespace Service

variable {κ : Type}

/-- One call; there is no terminating a queue that was not made. -/
def call (s : Service κ) (e : Estate κ) : Call κ → Option (Estate κ × Reply κ)
  | .create name exemplar =>
    match s.create name exemplar e.manager with
    | (.ok q, manager) => some ({ manager, queues := e.queues ++ [q] }, .created (.ok q))
    | (.error error, manager) => some ({ e with manager }, .created (.error error))
  | .terminate place =>
    match e.queues[place]? with
    | some q => some ({ e with manager := q.retire e.manager }, .terminated)
    | none => none
  | .remove id =>
    let (manager, record) := e.manager.remove id
    some ({ e with manager }, .removed record)
  | .add application =>
    let (manager, record) := e.manager.add application
    some ({ e with manager }, .added record)

/-- A service and its manager have come to a state through these calls. -/
inductive Run (s : Service κ) : Estate κ → List (Turn κ) → Prop where
  | start : Run s {} []
  | next {e f : Estate κ} {seen : List (Turn κ)} {c : Call κ} {reply : Reply κ} :
    Run s e seen → s.call e c = some (f, reply) → Run s f (seen ++ [⟨c, reply⟩])

def serve (s : Service κ) (e : Estate κ) : List (Call κ) → Option (Estate κ × List (Turn κ))
  | [] => some (e, [])
  | c :: calls =>
    match s.call e c with
    | none => none
    | some (f, reply) => (s.serve f calls).map fun (g, later) => (g, ⟨c, reply⟩ :: later)

/-- A run is carried on. -/
theorem Run.serve {s : Service κ} {e f : Estate κ} {seen later : List (Turn κ)}
    {calls : List (Call κ)} (run : s.Run e seen) (h : s.serve e calls = some (f, later)) :
    s.Run f (seen ++ later) := by
  induction calls generalizing e seen later with
  | nil =>
      obtain ⟨rfl, rfl⟩ : e = f ∧ [] = later := by simpa [Service.serve] using h
      simpa using run
  | cons c calls ih =>
      unfold Service.serve at h
      split at h
      · cases h
      · rename_i next reply hcall
        obtain ⟨⟨g, rest⟩, hrest, heq⟩ := Option.map_eq_some_iff.mp h
        obtain ⟨rfl, rfl⟩ := Prod.mk.inj heq
        simpa [List.append_assoc] using ih (run.next hcall) hrest

end Service

end Coordination.Queue
