import Coordination.Manager.Directory

/-!
Histories of a manager: queues are recorded and taken off its list in any order. The records are
kept in a map that has no order of its own, so between two operations they may come to stand in any
other.
-/

namespace Coordination.Manager.Directory

inductive Event where
  | add (application : Application)
  | remove (id : Nat)

/-- What a manager was told, and the record that it answered with: the new one, or the one that it
took off its list. -/
structure Turn where
  event : Event
  answer : Option Record

def step (d : Directory) : Event → Directory × Option Record
  | .add application =>
    let (d', record) := d.add application
    (d', some record)
  | .remove id => d.remove id

/-- A manager has come to a state through these turns. -/
inductive Run : Directory → List Turn → Prop where
  | start : Run {} []
  | next {d : Directory} {seen : List Turn} (e : Event) :
    Run d seen → Run (d.step e).1 (seen ++ [⟨e, (d.step e).2⟩])
  /-- The records come to stand in another order. -/
  | reorder {d : Directory} {seen : List Turn} {records : List Record} :
    Run d seen → records.Perm d.records → Run { d with records } seen

def tell (d : Directory) : List Event → Directory × List Turn
  | [] => (d, [])
  | e :: events =>
    let (d', answer) := d.step e
    let (d', later) := d'.tell events
    (d', ⟨e, answer⟩ :: later)

/-- A run is carried on. -/
theorem Run.tell {d : Directory} {seen : List Turn} (run : Run d seen) (events : List Event) :
    Run (d.tell events).1 (seen ++ (d.tell events).2) := by
  induction events generalizing d seen with
  | nil => simpa [Directory.tell] using run
  | cons e events ih => simpa [Directory.tell] using ih (run.next e)

end Coordination.Manager.Directory
