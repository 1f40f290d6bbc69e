import Coordination.Json.Document
import Coordination.Text.Integer

/-!
Typed values from documents. A record is read from an object, where members of other names are
skipped and a name of the record may stand once, or from an array with the fields in their order.
-/

namespace Coordination.Json.Document

def string? : Document → Option String
  | .str s => s
  | _ => none

/-- The integer that a number is written as. -/
def integer? : Document → Option Int
  | .num n => n.int?
  | _ => none

def word? (d : Document) : Option UInt64 :=
  match d.integer? with
  | some (.ofNat n) => Text.word? n
  | _ => none

def signedWord? (d : Document) : Option Int64 := d.integer?.bind Text.signedWord?

def millis? (d : Document) : Option Duration := d.word?.map fun n => Duration.ofMillis n.toNat

def items? : Document → Option (List Document)
  | .arr items => some items
  | _ => none

def strings? (d : Document) : Option (List String) := d.items?.bind (List.mapM string?)

/-- The members of an object, all of whose keys have a text. -/
def members? : Document → Option (List (String × Document))
  | .obj members => members.mapM fun m => m.1.map fun k => (k, m.2)
  | _ => none

/-- The last member of a name. -/
def last? (name : String) (members : List (String × Document)) : Option Document :=
  (members.reverse.find? fun m => m.1 = name).map Prod.snd

/-- The one member of a name, if there is one; a second one is an error. -/
def once? (name : String) (members : List (String × Document)) : Option (Option Document) :=
  match members.filter fun m => m.1 = name with
  | [] => some none
  | [m] => some (some m.2)
  | _ => none

/-- How an array form may end. -/
inductive ArrayForm where
  /-- Every field has its item. -/
  | complete
  /-- The last fields may be missing. -/
  | open
  deriving DecidableEq

/-- What is written for each field of a record, in the order of the names. -/
def fields? (form : ArrayForm) (names : List String) : Document → Option (List (Option Document))
  | .arr items =>
    if names.length < items.length then none
    else if form = .complete ∧ items.length < names.length then none
    else some (items.map some ++ List.replicate (names.length - items.length) none)
  | .obj members =>
    ((Document.obj members).members?).bind fun ms => names.mapM fun n => once? n ms
  | _ => none

def required {α : Type} (f : Document → Option α) (d : Option Document) : Option α := d.bind f

def optional {α : Type} (f : Document → Option α) : Option Document → Option (Option α)
  | none => some none
  | some d => (f d).map some

def nullable {α : Type} (f : Document → Option α) : Document → Option (Option α)
  | .null => some none
  | d => (f d).map some

end Coordination.Json.Document
