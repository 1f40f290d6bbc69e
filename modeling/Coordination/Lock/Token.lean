import Coordination.Json.Decode

/-!
Lock tokens: 128-bit identifiers in hexadecimal. They are read in four spellings and written in
one.
-/

namespace Coordination.Lock

/-- An identifier of 128 bits. -/
structure Token where
  bits : BitVec 128
  deriving DecidableEq, Repr

namespace Token

/-- The value of hexadecimal digits of either case, if all are. -/
def hexValue? (cs : List Char) : Option Nat :=
  cs.foldlM (fun n c => (Json.Token.hexValue? c).map fun d => 16 * n + d) 0

/-- The number of characters in the five groups of the hyphenated spelling. -/
def groups : List Nat := [8, 4, 4, 4, 12]

/-- Characters without the hyphens between groups of these lengths. -/
def ungroup? : List Nat → List Char → Option (List Char)
  | [], [] => some []
  | [], _ => none
  | [n], cs => if cs.length = n then some cs else none
  | n :: m :: gs, cs =>
    match cs.drop n with
    | '-' :: r => (ungroup? (m :: gs) r).map (cs.take n ++ ·)
    | _ => none

/-- Characters with hyphens between groups of these lengths. -/
def regroup : List Nat → List Char → List Char
  | [], _ => []
  | [n], cs => cs.take n
  | n :: m :: gs, cs => cs.take n ++ '-' :: regroup (m :: gs) (cs.drop n)

/-- The digits of a text: plain, hyphenated, hyphenated in braces, or after `urn:uuid:`. -/
def digits? (cs : List Char) : Option (List Char) :=
  if cs.length = 32 then some cs
  else if cs.length = 36 then ungroup? groups cs
  else if cs.length = 38 ∧ cs.head? = some '\x7b' ∧ cs.getLast? = some '\x7d' then
    ungroup? groups (cs.drop 1).dropLast
  else if cs.length = 45 ∧
      (cs.take 9).map Char.toLower = ['u', 'r', 'n', ':', 'u', 'u', 'i', 'd', ':']
  then ungroup? groups (cs.drop 9)
  else none

def parse (text : String) : Option Token :=
  ((digits? text.toList).bind hexValue?).map fun n => ⟨BitVec.ofNat 128 n⟩

/-- The digits of a number, with zeros in front up to a width. -/
def hexDigits (n : Nat) : Nat → List Char
  | 0 => []
  | w + 1 => hexDigits (n / 16) w ++ [Nat.digitChar (n % 16)]

/-- The text of a token: lower case, with hyphens. -/
def render (t : Token) : String := String.ofList (regroup groups (hexDigits t.bits.toNat 32))

def ofDocument? (doc : Json.Document) : Option Token := doc.string?.bind parse

end Token

/-- The key under which the file tree of one user is changed. -/
def userFileKey (uid : UInt64) : String :=
  "user-" ++ String.ofList (Nat.toDigits 10 uid.toNat) ++ "-file"

end Coordination.Lock
