import Coordination.Json.Basic
import Coordination.Json.Token

/-!
JSON texts as they are read. A document keeps what a value has lost: repeated keys, the spelling
of numbers, and strings without a text. What a reader makes of a document decides how much of it
has to be sound: a part that is only skipped may nest to any depth, hold numbers beyond binary64
and unpaired surrogates, a part that is kept may not.
-/

namespace Coordination.Json

/-- What a JSON text says, members and items in the order they are written. -/
inductive Document where
  | null
  | bool (b : Bool)
  | num (n : Number)
  | str (text : Option String)
  | arr (items : List Document)
  | obj (members : List (Option String × Document))
  deriving Repr, Inhabited

namespace Document

/-- A container that has been opened and not closed, its contents in reverse. -/
inductive Frame where
  | array (items : List Document)
  | object (members : List (Option String × Document)) (key : Option String)

inductive Expect where
  | value
  /-- The first item of an array, or its end. -/
  | firstItem
  /-- The first key of an object, or its end. -/
  | firstKey
  | key (members : List (Option String × Document))
  | colon (members : List (Option String × Document)) (key : Option String)
  /-- What follows a complete value. -/
  | after (doc : Document)

/-- A reader of tokens: the open containers, innermost first, and what may come next. -/
structure Reader where
  frames : List Frame
  expect : Expect

namespace Reader

def start : Reader := ⟨[], .value⟩

/-- A token that begins a value. -/
def open? (frames : List Frame) : Token → Option Reader
  | .null => some ⟨frames, .after .null⟩
  | .bool b => some ⟨frames, .after (.bool b)⟩
  | .num n => some ⟨frames, .after (.num n)⟩
  | .str s => some ⟨frames, .after (.str s)⟩
  | .openArray => some ⟨.array [] :: frames, .firstItem⟩
  | .openObject => some ⟨frames, .firstKey⟩
  | _ => none

/-- A token after a complete value. -/
def close? (frames : List Frame) (doc : Document) (t : Token) : Option Reader :=
  match frames, t with
  | .array items :: rest, .comma => some ⟨.array (doc :: items) :: rest, .value⟩
  | .array items :: rest, .closeArray => some ⟨rest, .after (.arr (doc :: items).reverse)⟩
  | .object members k :: rest, .comma => some ⟨rest, .key ((k, doc) :: members)⟩
  | .object members k :: rest, .closeObject =>
    some ⟨rest, .after (.obj ((k, doc) :: members).reverse)⟩
  | _, _ => none

def step (r : Reader) (t : Token) : Option Reader :=
  match r.expect, t with
  | .value, t => open? r.frames t
  | .firstItem, .closeArray =>
    match r.frames with
    | .array _ :: rest => some ⟨rest, .after (.arr [])⟩
    | _ => none
  | .firstItem, t => open? r.frames t
  | .firstKey, .closeObject => some ⟨r.frames, .after (.obj [])⟩
  | .firstKey, .str k => some ⟨r.frames, .colon [] k⟩
  | .key members, .str k => some ⟨r.frames, .colon members k⟩
  | .colon members k, .colon => some ⟨.object members k :: r.frames, .value⟩
  | .after doc, t => close? r.frames doc t
  | _, _ => none

/-- The document at the end of the tokens, if it is complete. -/
def finish (r : Reader) : Option Document :=
  match r.frames, r.expect with
  | [], .after doc => some doc
  | _, _ => none

end Reader

def ofTokens? (ts : List Token) : Option Document :=
  (ts.foldlM Reader.step Reader.start).bind Reader.finish

def parse (text : String) : Option Document := (tokenize text.toList).bind ofTokens?

/-- Levels that the containers around a kept value and in it may form. -/
def levelLimit : Nat := 127

mutual
/-- A document that may be kept: every string in it has a text, every number is finite, and it
opens at most so many containers inside each other. -/
def sound (levels : Nat) : Document → Bool
  | .null => true
  | .bool _ => true
  | .num n => n.finite
  | .str s => s.isSome
  | .arr items =>
    match levels with
    | 0 => false
    | l + 1 => soundItems l items
  | .obj members =>
    match levels with
    | 0 => false
    | l + 1 => soundMembers l members

def soundItems (levels : Nat) : List Document → Bool
  | [] => true
  | d :: r => d.sound levels && soundItems levels r

def soundMembers (levels : Nat) : List (Option String × Document) → Bool
  | [] => true
  | (k, d) :: r => k.isSome && d.sound levels && soundMembers levels r
end

mutual
/-- The value that a document stands for, if its numbers are integers and its strings have texts. -/
def value? : Document → Option Json
  | .null => some .null
  | .bool b => some (.bool b)
  | .num n => n.int?.map .int
  | .str s => s.map .str
  | .arr items => (itemValues? items).map .arr
  | .obj members => (memberValues? members).map .obj

def itemValues? : List Document → Option (List Json)
  | [] => some []
  | d :: r => do
    let v ← d.value?
    let vs ← itemValues? r
    pure (v :: vs)

def memberValues? : List (Option String × Document) → Option (List (String × Json))
  | [] => some []
  | (k, d) :: r => do
    let k ← k
    let v ← d.value?
    let vs ← memberValues? r
    pure ((k, v) :: vs)
end

mutual
/-- A written value as it is read back. -/
def ofJson : Json → Document
  | .null => .null
  | .bool b => .bool b
  | .int n =>
    .num ⟨n < 0, (Nat.toDigits 10 n.natAbs).map (fun c => c.toNat - 48), none, none⟩
  | .str s => .str (some s)
  | .arr items => .arr (ofItems items)
  | .obj members => .obj (ofMembers members)

def ofItems : List Json → List Document
  | [] => []
  | v :: r => ofJson v :: ofItems r

def ofMembers : List (String × Json) → List (Option String × Document)
  | [] => []
  | (k, v) :: r => (some k, ofJson v) :: ofMembers r
end

end Document

end Coordination.Json
