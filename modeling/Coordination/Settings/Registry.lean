import Std.Data.ExtTreeMap
import Coordination.Settings.Overlay
import Coordination.Text.Uppercase

/-!
Default settings and complete settings for individually configured queues. A queue that is not
listed has the defaults under its own name. The registry is loaded from JSON or from variables. Both
start with the defaults and fill in the listed queues one after another, each over what the registry
has for it so far; JSON does so by writing that out and reading it back with the entry over it.
-/

namespace Coordination

structure Settings.Registry where
  defaults : Settings := Settings.builtIn
  /-- Settings by queue; the map has one value per key and no order. -/
  queues : Std.ExtTreeMap String Settings := {}

namespace Settings.Registry

/-- Add the settings of a queue under their own name, in place of those that stood there. -/
def insert (r : Registry) (s : Settings) : Registry :=
  { r with queues := r.queues.insert s.name s }

def forQueue (r : Registry) (name : String) : Settings :=
  match r.queues[name]? with
  | some s => s
  | none => { r.defaults with name }

/-- The JSON form, queues in the order of their names. -/
def toJson (r : Registry) : Json :=
  .obj [
    ("defaults", r.defaults.toJson),
    ("queues", .obj (r.queues.toList.map fun q => (q.1, q.2.toJson)))]

def same (r s : Registry) : Bool := r.defaults = s.defaults ∧ r.queues.toList = s.queues.toList

/-- Containers around an entry: the registry and its `queues`. -/
def entryLevels : Nat := Json.Document.levelLimit - 2

/-- The members of a sound entry; an entry is an object. -/
def entryMembers? (doc : Json.Document) : Option (List (String × Json.Document)) :=
  if doc.sound entryLevels then doc.members? else none

def entries? (doc : Json.Document) : Option (List (String × List (String × Json.Document))) := do
  let members ← doc.members?
  members.mapM fun m => (entryMembers? m.2).map fun e => (m.1, e)

/-- Every key once, with its last value. -/
def lastEntries {α : Type} (l : List (String × α)) : Std.ExtTreeMap String α :=
  l.foldl (fun m e => m.insert e.1 e.2) {}

/-- What is written for settings, as the members of an object that is read back. -/
def writtenMembers (s : Settings) : List (String × Json.Document) :=
  s.members.map fun m => (m.1, Json.Document.ofJson m.2)

/-- The name of settings that were read for a key: the one they give, unless it is empty or
`default`, and the key otherwise. -/
def nameFor (key name : String) : String := if name = "" ∨ name = "default" then key else name

/-- One entry. What the registry has so far for its key is written out, the members of the entry
are put over it, and the outcome is read back and gets its name. -/
def fill (r : Registry) (e : String × List (String × Json.Document)) : Option Registry := do
  let s ← Settings.ofMembers? (writtenMembers (r.forQueue e.1) ++ e.2)
  pure { r with queues := r.queues.insert e.1 { s with name := nameFor e.1 s.name } }

def fieldNames : List String := ["defaults", "queues"]

def ofDocument? (doc : Json.Document) : Option Registry := do
  match ← doc.fields? .open fieldNames with
  | [defaults, queues] =>
    let defaults := (← Json.Document.optional Settings.ofDocument? defaults).getD builtIn
    let entries := (← Json.Document.optional entries? queues).getD []
    (lastEntries entries).toList.foldlM fill { defaults }
  | _ => none

def parse (text : String) : Option Registry := (Json.Document.parse text).bind ofDocument?

/-- One listed queue: its variables over what the registry has for it so far. -/
def load (env : Environment) (r : Registry) (name : String) : Except SettingsError Registry := do
  let overlay ← Overlay.ofEnvironment env (Text.uppercase name)
  pure (r.insert ((r.forQueue name).layer overlay))

/-- The variable that lists the queues with settings of their own. -/
def namesVariable : String := "QUEUE_NAMES"

/-- A registry from variables: the defaults first, then the listed queues in their order. -/
def ofEnvironment (env : Environment) : Except SettingsError Registry := do
  let overlay ← Overlay.ofEnvironment env "DEFAULT"
  (Text.names ((env namesVariable).getD "")).foldlM (load env) { defaults := builtIn.layer overlay }

end Settings.Registry

end Coordination
