import Coordination.Duration

/-!
Integers as variables spell them: ASCII digits, at least one, with a sign in front if the type
allows it. A plus sign is always allowed, a minus sign only before a signed number.
-/

namespace Coordination.Text

/-- The number that a non-empty run of ASCII digits stands for. -/
def digits? (cs : List Char) : Option Nat :=
  if cs.isEmpty ∨ cs.any (fun c => ¬ ('0' ≤ c ∧ c ≤ '9')) then none
  else some (cs.foldl (fun n c => 10 * n + (c.toNat - 48)) 0)

def natural? : List Char → Option Nat
  | '+' :: r => digits? r
  | cs => digits? cs

def integer? : List Char → Option Int
  | '+' :: r => (digits? r).map Int.ofNat
  | '-' :: r => (digits? r).map fun n => -(n : Int)
  | cs => (digits? cs).map Int.ofNat

def word? (n : Nat) : Option UInt64 :=
  if n < wordSize then some (UInt64.ofNat n) else none

def signedWord? (n : Int) : Option Int64 :=
  if -9223372036854775808 ≤ n ∧ n ≤ 9223372036854775807 then some (Int64.ofInt n) else none

end Coordination.Text
