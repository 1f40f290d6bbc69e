import Coordination.Text.Integer
import Coordination.Text.Blank
import Coordination.Text.Quoted

/-!
Variables that configure the process. A numeric variable that is set has to be a number in the
range of its field; what is wrong with one is reported with its name and its text as it stands.
-/

namespace Coordination

/-- The variables that are set, by name. -/
abbrev Environment := String → Option String

namespace Environment

/-- The environment in which exactly these variables are set; the first of a name counts. -/
def ofList (vars : List (String × String)) : Environment := fun name => vars.lookup name

def empty : Environment := fun _ => none

end Environment

inductive SettingsError where
  | invalidVariable (key value : String)
  /-- A text is not JSON or not JSON of the right shape. -/
  | malformedJson
  deriving DecidableEq, Repr

/-- What is reported for an invalid variable; JSON errors have no fixed text. -/
def SettingsError.message : SettingsError → Option String
  | .invalidVariable key value => some ("invalid value " ++ Text.quoted value ++ " for " ++ key)
  | .malformedJson => none

namespace Environment

/-- A variable with the meaning that `read` gives to its trimmed text. -/
def parsed {α : Type} (env : Environment) (read : List Char → Option α) (key : String) :
    Except SettingsError (Option α) :=
  match env key with
  | none => .ok none
  | some value =>
    match read (Text.trimChars value.toList) with
    | some a => .ok (some a)
    | none => .error (.invalidVariable key value)

/-- An unsigned 64-bit variable. -/
def word (env : Environment) (key : String) : Except SettingsError (Option UInt64) :=
  env.parsed (fun cs => (Text.natural? cs).bind Text.word?) key

def signedWord (env : Environment) (key : String) : Except SettingsError (Option Int64) :=
  env.parsed (fun cs => (Text.integer? cs).bind Text.signedWord?) key

def millis (env : Environment) (key : String) : Except SettingsError (Option Duration) :=
  env.parsed
    (fun cs => ((Text.natural? cs).bind Text.word?).map fun n => Duration.ofMillis n.toNat) key

end Environment

end Coordination
