import Coordination.Environment

/-!
What the process reports under and how it logs, read from variables.
-/

namespace Coordination

structure Telemetry where
  serviceName : String := "filehost"
  console : Bool := true
  /-- The filter; without one, messages of level `info` and above are logged. -/
  logFilter : Option String := none
  /-- One JSON object per line instead of text. -/
  json : Bool := false
  deriving DecidableEq, Repr

namespace Telemetry

/-- The ASCII lower-case form of a text; other characters stay. -/
def asciiLower (s : String) : List Char := s.toList.map Char.toLower

/-- A configuration from variables. `RUST_LOG` comes before `LOG_LEVEL`, and the format is JSON
when `LOG_FORMAT` says so in any case. -/
def ofEnvironment (env : Environment) : Telemetry where
  serviceName := (env "SERVICE_NAME").getD "filehost"
  logFilter := (env "RUST_LOG").or (env "LOG_LEVEL")
  json := (env "LOG_FORMAT").any fun v => asciiLower v = ['j', 's', 'o', 'n']

/-- Installing a subscriber succeeds only when none is there yet. -/
def install (present : Bool) : Bool := !present

end Telemetry

end Coordination
