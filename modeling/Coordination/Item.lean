import Coordination.Exemplar
import Coordination.Mail.Message

/-!
Queued items of any kind. A queue accepts the items of one kind; the name of a kind is what
mismatches and records report.
-/

namespace Coordination

inductive Item.Kind where
  | word8
  | word32
  | word64
  | signed64
  | flag
  | unit
  | text
  | slice
  | words
  | maybeWord
  /-- Mails of a type that goes by this name. -/
  | mail (typeName : String)
  | boxedMail (typeName : String)
  | message
  deriving DecidableEq, Repr

/-- An item; a boxed mail is no mail, and a text slice is no text. -/
inductive Item where
  | word8 (n : UInt8)
  | word32 (n : UInt32)
  | word64 (n : UInt64)
  | signed64 (n : Int64)
  | flag (b : Bool)
  | unit
  | text (s : String)
  | slice (s : String)
  | words (l : List UInt32)
  | maybeWord (n : Option UInt32)
  | mail (typeName recipient : String)
  | boxedMail (typeName recipient : String)
  | message (m : Mail.Message)
  deriving DecidableEq, Repr

namespace Item

/-- Bytes that a queued item takes, whatever its kind: a box for the item and the name of its type,
of two words each. -/
def bytes : Nat := 32

def kind : Item → Kind
  | .word8 _ => .word8
  | .word32 _ => .word32
  | .word64 _ => .word64
  | .signed64 _ => .signed64
  | .flag _ => .flag
  | .unit => .unit
  | .text _ => .text
  | .slice _ => .slice
  | .words _ => .words
  | .maybeWord _ => .maybeWord
  | .mail typeName _ => .mail typeName
  | .boxedMail typeName _ => .boxedMail typeName
  | .message _ => .message

def Kind.typeName : Kind → String
  | .word8 => "u8"
  | .word32 => "u32"
  | .word64 => "u64"
  | .signed64 => "i64"
  | .flag => "bool"
  | .unit => "()"
  | .text => "alloc::string::String"
  | .slice => "&str"
  | .words => "alloc::vec::Vec<u32>"
  | .maybeWord => "core::option::Option<u32>"
  | .mail typeName => typeName
  | .boxedMail typeName => "alloc::boxed::Box<" ++ typeName ++ ">"
  | .message => "filehost_worker::mailer::Message"

instance : NamedKind Kind := ⟨Kind.typeName⟩

def exemplar (k : Kind) : Exemplar Item Kind := ⟨kind, k⟩

def Kind.accepts (k : Kind) (item : Item) : Bool := (exemplar k).accepts item

/-- The items that a typed handler gets of a batch: those of its kind, in their order. -/
def Kind.select (k : Kind) (items : List Item) : List Item :=
  ((exemplar k).receive items).map Subtype.val

def cast? (item : Item) (k : Kind) : Option Item := ((exemplar k).cast? item).map Subtype.val

/-- How an item shows in messages: by its kind alone. -/
def describe (item : Item) : String :=
  "Data \x7b type_name: " ++ Text.quoted item.kind.typeName ++ ", .. \x7d"

end Item

end Coordination
