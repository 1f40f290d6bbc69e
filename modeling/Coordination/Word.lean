/-!
Numbers that fit a machine word. A sum is checked: where it outgrows its word there is none, and the
call that adds it up breaks off.
-/

namespace Coordination

/-- The number of values of a 64-bit word, which bounds counts and whole seconds. -/
def wordSize : Nat := 18446744073709551616

/-- The most bytes that can be asked for in one piece of memory. -/
def maxBytes : Nat := 9223372036854775807

/-- What a call says that breaks off because a sum has outgrown its word. -/
def overflowMessage : String := "attempt to add with overflow"

/-- The sum of words, added up one after another. -/
def wordSum? (words : List Nat) : Option Nat :=
  words.foldlM (fun sum n => if sum + n < wordSize then some (sum + n) else none) 0

end Coordination
