import Coordination.Settings.Registry
import Coordination.Mail.Message
import Coordination.Lock.Backends

/-!
The configuration of the whole process, read from its variables.
-/

namespace Coordination

/-- What the process is started with. -/
structure Setup where
  lockerType : String := Lock.memoryName
  lockerConfig : String := ""
  queues : Settings.Registry := {}
  mailer : Mail.Sender := {}

namespace Setup

/-- The configuration from variables; only the queue settings can be invalid. -/
def ofEnvironment (env : Environment) : Except SettingsError Setup := do
  let queues ← Settings.Registry.ofEnvironment env
  pure {
    lockerType := (env "LOCKER_TYPE").getD Lock.memoryName
    lockerConfig := (env "LOCKER_CONFIG").getD ""
    queues
    mailer := Mail.Sender.ofEnvironment env }

end Setup

end Coordination
