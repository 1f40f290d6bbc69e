import Coordination.Lock.Locker
import Coordination.Text.Quoted

/-!
Lock services by name. A name stands for one factory, which makes a service from a configuration
text.
-/

namespace Coordination.Lock

/-- Makes an empty lock service from its configuration, or says why it cannot. -/
abbrev Factory (τ : Type) := String → Except Error (Locker τ)

structure Backends (τ : Type) where
  factories : List (String × Factory τ) := []

def memoryName : String := "memory"

namespace Backends

variable {τ : Type}

/-- The service in memory needs no configuration. -/
def memory : Factory τ := fun _ => .ok {}

def empty : Backends τ := {}

def builtIn : Backends τ := ⟨[(memoryName, memory)]⟩

def contains (b : Backends τ) (name : String) : Bool := (b.factories.lookup name).isSome

/-- Register a factory; a name that is taken is refused. -/
def register? (b : Backends τ) (name : String) (factory : Factory τ) : Option (Backends τ) :=
  if b.contains name then none else some ⟨b.factories ++ [(name, factory)]⟩

/-- What a refused registration stops with. -/
def takenMessage (name : String) : String := "locker backend registered twice: " ++ name

def create (b : Backends τ) (name config : String) : Except Error (Locker τ) :=
  match b.factories.lookup name with
  | some factory => factory config
  | none => .error (.unknownBackend name)

def names (b : Backends τ) : List String := b.factories.map Prod.fst

def describe (b : Backends τ) : String :=
  "LockerRegistry \x7b backends: " ++ Text.quotedList b.names ++ " \x7d"

end Backends

end Coordination.Lock
