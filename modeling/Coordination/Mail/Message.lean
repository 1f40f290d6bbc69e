import Coordination.Environment
import Coordination.Json.Decode
import Coordination.Time.Timestamp

/-!
Mails before they are queued: the configured sender, the prefix of subjects, headers, and the
JSON form.
-/

namespace Coordination.Mail

structure Sender where
  name : String := "Filehost"
  address : String := "noreply@localhost"
  /-- Put in front of every subject, with a blank between; empty for none. -/
  subjectPrefix : String := ""
  deriving DecidableEq, Repr

def Sender.ofEnvironment (env : Environment) : Sender where
  name := (env "MAILER_FROM_NAME").getD "Filehost"
  address := (env "MAILER_FROM").getD "noreply@localhost"
  subjectPrefix := (env "MAILER_SUBJECT_PREFIX").getD ""

/-- Headers by name, each with its values; a name stands once. -/
abbrev Headers := List (String × List String)

def Headers.set (h : Headers) (field : String) (values : List String) : Headers :=
  h.filter (fun e => e.1 ≠ field) ++ [(field, values)]

structure Message where
  subject : String
  fromAddress : String
  fromName : String
  recipients : List String
  date : Time.Timestamp
  body : String
  headers : Headers := []
  deriving DecidableEq, Repr

namespace Message

def compose (sender : Sender) (recipients : List String) (date : Time.Timestamp)
    (subject body : String) : Message where
  subject := if sender.subjectPrefix = "" then subject else sender.subjectPrefix ++ " " ++ subject
  fromAddress := sender.address
  fromName := sender.name
  recipients := recipients
  date := date
  body := body

def setHeader (m : Message) (field : String) (values : List String) : Message :=
  { m with headers := m.headers.set field values }

def fieldNames : List String :=
  ["subject", "from_address", "from_name", "to", "date", "body", "headers"]

def strings (l : List String) : Json := .arr (l.map .str)

def toJson (m : Message) : Json :=
  .obj [
    ("subject", .str m.subject),
    ("from_address", .str m.fromAddress),
    ("from_name", .str m.fromName),
    ("to", strings m.recipients),
    ("date", .str m.date.render),
    ("body", .str m.body),
    ("headers", .obj (m.headers.map fun h => (h.1, strings h.2)))]

/-- Headers from an object; of a repeated name the last one counts. -/
def headers? (doc : Json.Document) : Option Headers := do
  let members ← doc.members?
  let pairs ← members.mapM fun m => m.2.strings?.map fun values => (m.1, values)
  pure (pairs.foldl (fun h p => h.set p.1 p.2) [])

open Json.Document in
/-- A mail from its JSON form. Every field has to be written. -/
def ofDocument? (doc : Json.Document) : Option Message := do
  match ← fields? .complete fieldNames doc with
  | [subject, fromAddress, fromName, recipients, date, body, headers] =>
    pure {
      subject := ← required string? subject
      fromAddress := ← required string? fromAddress
      fromName := ← required string? fromName
      recipients := ← required strings? recipients
      date := ← required (fun d => d.string?.bind Time.Timestamp.parse) date
      body := ← required string? body
      headers := ← required headers? headers }
  | _ => none

def parse (text : String) : Option Message := (Json.Document.parse text).bind ofDocument?

end Message

end Coordination.Mail
