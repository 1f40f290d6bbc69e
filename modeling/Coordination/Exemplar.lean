/-!
What a queue accepts. Items of many kinds reach a queue, and it takes those of one kind; its
exemplar tells them apart, at the door of the queue and again in front of a typed handler.
-/

namespace Coordination

/-- Kinds of items that show by a name. -/
class NamedKind (κ : Type) where
  typeName : κ → String

/-- The one kind of items `ι` that a queue accepts, where `kindOf` tells the kind `κ` of each. -/
structure Exemplar (ι κ : Type) where
  kindOf : ι → κ
  kind : κ

namespace Exemplar

variable {ι κ : Type}

abbrev Accepted (x : Exemplar ι κ) : Type := { item : ι // x.kindOf item = x.kind }

/-- A queue got an item of another kind than it accepts. -/
structure Mismatch (κ : Type) where
  queue : String
  expected : κ
  actual : κ
  deriving DecidableEq, Repr

variable [DecidableEq κ]

def accepts (x : Exemplar ι κ) (item : ι) : Bool := x.kindOf item = x.kind

def cast? (x : Exemplar ι κ) (item : ι) : Option x.Accepted :=
  if h : x.kindOf item = x.kind then some ⟨item, h⟩ else none

/-- What a typed handler gets of a batch: the items of the kind, in their order. Others are
dropped. -/
def receive (x : Exemplar ι κ) (batch : List ι) : List x.Accepted := batch.filterMap x.cast?

/-- The check of a named queue: an item of another kind is refused. -/
def check (x : Exemplar ι κ) (queue : String) (item : ι) : Except (Mismatch κ) Unit :=
  if x.accepts item then .ok () else .error ⟨queue, x.kind, x.kindOf item⟩

end Exemplar

end Coordination
