import Coordination.Exemplar
import Coordination.Settings.Registry
import Coordination.Manager.Directory
import Coordination.Pool.Basic

/-!
Named queues. A queue is made by a backend, which is chosen by the type tag in the settings; an
unknown tag falls back to the built-in backend. Making a queue checks its settings first and
records it with the manager last, so a queue that is refused leaves no trace.
-/

namespace Coordination.Queue

/-- Why a queue could not be made, or an item not be pushed, where `κ` are the kinds of items. -/
inductive Error (κ : Type) where
  | unsupportedType (tag : String)
  | invalidConfiguration (reason : String)
  | typeMismatch (queue : String) (expected actual : κ)
  | pool (error : Pool.Error)
  deriving DecidableEq, Repr

/-- A queue that has been made: its record and what is needed to run it. -/
structure Built (κ : Type) where
  name : String
  record : Manager.Record
  pool : Pool.Config
  workers : Nat
  exemplar : κ

/-- What a backend answers, the queue or why there is none, and the manager that it leaves. -/
abbrev Made (κ : Type) := Except (Error κ) (Built κ) × Manager.Directory

/-- A backend makes queues from settings, for items of one kind. -/
abbrev Backend (κ : Type) := Settings → κ → Manager.Directory → Made κ

variable {κ : Type}

/-- An item of another kind than the queue accepts is refused before it reaches the pool. -/
def Built.check {ι : Type} [DecidableEq κ] (kindOf : ι → κ) (q : Built κ) (item : ι) :
    Except (Error κ) Unit :=
  match (Exemplar.mk kindOf q.exemplar).check q.name item with
  | .ok () => .ok ()
  | .error e => .error (.typeMismatch e.queue e.expected e.actual)

/-- A queue that is terminated takes its record off the manager. -/
def Built.retire (q : Built κ) (manager : Manager.Directory) : Manager.Directory :=
  (manager.remove q.record.id).1

def channelTag : String := "channel"

variable [NamedKind κ]

def Error.message : Error κ → String
  | .unsupportedType tag => "unsupported queue type: " ++ tag
  | .invalidConfiguration reason => "invalid queue configuration: " ++ reason
  | .typeMismatch queue expected actual =>
    "queue " ++ queue ++ " accepts " ++ NamedKind.typeName expected ++ ", got " ++
      NamedKind.typeName actual
  | .pool error => error.message

/-- The built-in backend: a pool in this process. Its buffer needs a length. -/
def channel : Backend κ := fun settings exemplar manager =>
  if settings.length = 0 then
    (.error (.invalidConfiguration ("queue " ++ settings.name ++ " needs a length of at least 1")),
      manager)
  else
    let (manager, record) := manager.add {
      name := some settings.name
      kind := channelTag
      exemplar := NamedKind.typeName exemplar
      configuration := settings.toJson }
    (.ok ⟨settings.name, record, settings.poolConfig, settings.workers.toNat, exemplar⟩, manager)

structure Backends (κ : Type) where
  table : List (String × Backend κ) := []

namespace Backends

def empty : Backends κ := {}

def builtIn : Backends κ := ⟨[(channelTag, channel)]⟩

/-- Register a backend; a tag that is taken is refused. -/
def register? (b : Backends κ) (tag : String) (backend : Backend κ) : Option (Backends κ) :=
  if (b.table.lookup tag).isSome then none else some ⟨b.table ++ [(tag, backend)]⟩

/-- What a refused registration stops with. -/
def takenMessage (tag : String) : String := "queue type registered twice: " ++ tag

/-- The tag that a configured tag stands for: the empty one means the built-in backend. -/
def resolve (b : Backends κ) (tag : String) : Except (Error κ) String :=
  let tag := if tag = "" then channelTag else tag
  if (b.table.lookup tag).isSome then .ok tag else .error (.unsupportedType tag)

/-- Make a queue with the backend of exactly this tag. -/
def create (b : Backends κ) (tag : String) (settings : Settings) (exemplar : κ)
    (manager : Manager.Directory) : Made κ :=
  match b.table.lookup tag with
  | some backend => backend settings exemplar manager
  | none => (.error (.unsupportedType tag), manager)

def tags (b : Backends κ) : List String := b.table.map Prod.fst

def describe (b : Backends κ) : String :=
  "QueueRegistry \x7b types: " ++ Text.quotedList b.tags ++ " \x7d"

end Backends

structure Service (κ : Type) where
  settings : Settings.Registry
  backends : Backends κ

namespace Service

def new (settings : Settings.Registry) : Service κ := ⟨settings, Backends.builtIn⟩

/-- The backend that settings ask for, or the built-in one if there is none of that tag. -/
def tagFor (s : Service κ) (settings : Settings) : String :=
  match s.backends.resolve settings.kind with
  | .ok tag => tag
  | .error _ => channelTag

def create (s : Service κ) (name : String) (exemplar : κ) (manager : Manager.Directory) : Made κ :=
  let settings := s.settings.forQueue name
  s.backends.create (s.tagFor settings) settings exemplar manager

def describe (s : Service κ) (manager : Manager.Directory) : String :=
  "QueueService \x7b manager: " ++ manager.describe ++ ", registry: " ++ s.backends.describe ++
    " \x7d"

end Service

end Coordination.Queue
