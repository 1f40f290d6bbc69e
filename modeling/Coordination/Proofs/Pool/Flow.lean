import Mathlib.Algebra.Order.Group.Multiset
import Coordination.Pool.Run

/-!
The way of items through a pool, without anything else. A flow is what a pool looks like to its
items: who waits for room, what is buffered, what workers hold, and what is inside handler calls.
`Moves` lists every way in which one step can move items, together with what the step tells about
them; times, crews and the boost controller have no place in it. Laws about items are proved for
moves, and hold for pools because every step of a pool is a move.
-/

namespace Coordination.Pool

variable {α : Type}

/-- Where the items of a pool are. What workers hold and what handlers work on is counted without
an order, since the order of the workers means nothing to an item. -/
structure Flow (α : Type) where
  pushes : Nat
  waiting : List (Entry α)
  buffer : List (Entry α)
  /-- Items taken by workers and not handed over. -/
  batches : Multiset (Entry α)
  /-- Items of handler calls that have not ended. -/
  calls : Multiset (Entry α)
  pending : Int

def flow (p : Pool α) : Flow α where
  pushes := p.pushes
  waiting := p.blocked.map Blocked.entry
  buffer := p.buffer
  batches := p.batches
  calls := p.calls
  pending := p.pending

def Flow.start : Flow α := ⟨0, [], [], 0, 0, 0⟩

theorem flow_new (config : Config) (now itemBytes : Nat) :
    (new config now itemBytes : Pool α).flow = Flow.start := rfl

/-- What a history tells about items. -/
structure Tidings (α : Type) where
  accepted : List Nat := []
  refused : List Nat := []
  handed : List (Entry α) := []
  ended : List (Entry α) := []

def tidings (history : List (Nat × Event α)) : Tidings α :=
  ⟨accepted history, refused history, handed history, ended history⟩

def Tidings.append (s t : Tidings α) : Tidings α :=
  ⟨s.accepted ++ t.accepted, s.refused ++ t.refused, s.handed ++ t.handed, s.ended ++ t.ended⟩

instance : Append (Tidings α) := ⟨Tidings.append⟩

@[simp] theorem Tidings.accepted_append (s t : Tidings α) :
    (s ++ t).accepted = s.accepted ++ t.accepted := rfl

@[simp] theorem Tidings.refused_append (s t : Tidings α) :
    (s ++ t).refused = s.refused ++ t.refused := rfl

@[simp] theorem Tidings.handed_append (s t : Tidings α) :
    (s ++ t).handed = s.handed ++ t.handed := rfl

@[simp] theorem Tidings.ended_append (s t : Tidings α) :
    (s ++ t).ended = s.ended ++ t.ended := rfl

@[simp] theorem Tidings.append_empty (t : Tidings α) : t ++ ({} : Tidings α) = t := by
  change Tidings.append t {} = t
  simp [Tidings.append]

@[simp] theorem tidings_nil : tidings ([] : List (Nat × Event α)) = {} := rfl

theorem tidings_append (h k : List (Nat × Event α)) :
    tidings (h ++ k) = tidings h ++ tidings k := by
  change Tidings.mk _ _ _ _ = Tidings.append _ _
  simp [Tidings.append, tidings, accepted, refused, handed, ended]

theorem tidings_cons (e : Nat × Event α) (h : List (Nat × Event α)) :
    tidings (e :: h) = tidings [e] ++ tidings h := tidings_append [e] h

@[simp] theorem tidings_called (now id : Nat) (batch : List (Entry α)) (last : Bool) :
    tidings [(now, .called id batch last)] = { handed := batch } := by
  simp [tidings, accepted, refused, handed, ended]

@[simp] theorem tidings_handled (now id : Nat) (batch : List (Entry α)) (panicked : Bool) :
    tidings [(now, .handled id batch panicked)] = { ended := batch } := by
  simp [tidings, accepted, refused, handed, ended]

theorem stamp_append (now : Nat) (es fs : List (Event α)) :
    stamp now (es ++ fs) = stamp now es ++ stamp now fs := by simp [stamp]

theorem mem_stamp {now t : Nat} {e : Event α} {events : List (Event α)} :
    (t, e) ∈ stamp now events ↔ t = now ∧ e ∈ events := by
  simp [stamp, eq_comm, and_comm]

def others (push : Nat) (entries : List (Entry α)) : List (Entry α) :=
  entries.filter fun e => e.push ≠ push

/-- How one step moves items, in a pool whose buffer holds `capacity` of them, and what it tells. -/
inductive Moves (capacity : Nat) : Label α → Flow α → Tidings α → Flow α → Prop where
  /-- A new push returns without having left anything. -/
  | turnAway {f : Flow α} (item : α) (cancelled : Bool) :
    Moves capacity (.push item cancelled) f { refused := [f.pushes] }
      { f with pushes := f.pushes + 1 }
  /-- A new push finds room. -/
  | accept {f : Flow α} (item : α) (cancelled : Bool) (room : f.buffer.length < capacity) :
    Moves capacity (.push item cancelled) f { accepted := [f.pushes] }
      { f with
        pushes := f.pushes + 1
        buffer := f.buffer ++ [⟨f.pushes, item⟩]
        pending := f.pending + 1 }
  | wait {f : Flow α} (item : α) (cancelled : Bool) :
    Moves capacity (.push item cancelled) f {}
      { f with
        pushes := f.pushes + 1
        waiting := f.waiting ++ [⟨f.pushes, item⟩]
        pending := f.pending + 1 }
  /-- A waiting push gets its room. -/
  | enter {f : Flow α} {e : Entry α} (waits : e ∈ f.waiting) (room : f.buffer.length < capacity) :
    Moves capacity (.resume e.push) f { accepted := [e.push] }
      { f with waiting := others e.push f.waiting, buffer := f.buffer ++ [e] }
  | giveUp {f : Flow α} {e : Entry α} (waits : e ∈ f.waiting) :
    Moves capacity (.resume e.push) f { refused := [e.push] }
      { f with waiting := others e.push f.waiting, pending := f.pending - 1 }
  /-- A waiting push is abandoned, or breaks off. -/
  | drop {f : Flow α} {label : Label α} (push : Nat)
    (own : label = .dropPush push ∨ label = .resume push) :
    Moves capacity label f {} { f with waiting := others push f.waiting }
  /-- A worker takes items from the front of the buffer and hands items over. -/
  | work {f : Flow α} (id : Nat) {taken rest handed : List (Entry α)}
    {batches : Multiset (Entry α)} (front : f.buffer = taken ++ rest)
    (balance : f.batches + taken = batches + handed) :
    Moves capacity (.work id) f { handed }
      { f with buffer := rest, batches, calls := f.calls + handed }
  | finish {f : Flow α} (id : Nat) (panicked : Bool) {ended : List (Entry α)}
    {calls : Multiset (Entry α)} (balance : f.calls = calls + ended) :
    Moves capacity (.finish id panicked) f { ended }
      { f with calls, pending := f.pending - ended.length }
  /-- No item moves. -/
  | stay {f : Flow α} (label : Label α) (quiet : label.item? = none) : Moves capacity label f {} f

/-- A move whose outcome is written in another way. -/
theorem Moves.cast {capacity : Nat} {label : Label α} {f g g' : Flow α} {t t' : Tidings α}
    (h : Moves capacity label f t g) (ht : t' = t) (hg : g' = g) :
    Moves capacity label f t' g' := by
  rw [ht, hg]
  exact h

end Coordination.Pool
