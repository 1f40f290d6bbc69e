/-!
White space in the wide sense, and cutting it off both ends of a text.
-/

namespace Coordination.Text

/-- The code points with the property of white space, which are twenty-five. -/
def isBlankCode (n : Nat) : Bool :=
  (9 ≤ n ∧ n ≤ 13) ∨ n = 0x20 ∨ n = 0x85 ∨ n = 0xA0 ∨ n = 0x1680 ∨ (0x2000 ≤ n ∧ n ≤ 0x200A) ∨
    n = 0x2028 ∨ n = 0x2029 ∨ n = 0x202F ∨ n = 0x205F ∨ n = 0x3000

def isBlank (c : Char) : Bool := isBlankCode c.toNat

def trimChars (cs : List Char) : List Char :=
  ((cs.dropWhile isBlank).reverse.dropWhile isBlank).reverse

def trim (s : String) : String := String.ofList (trimChars s.toList)

/-- The pieces between the commas of a text; a text without a comma is one piece. -/
def splitCommas : List Char → List (List Char)
  | [] => [[]]
  | c :: r =>
    if c = ',' then [] :: splitCommas r
    else
      match splitCommas r with
      | piece :: rest => (c :: piece) :: rest
      | [] => [[c]]

/-- The names in a list with commas: trimmed, empty ones left out. -/
def names (s : String) : List String :=
  ((splitCommas s.toList).map trimChars).filterMap fun cs =>
    if cs.isEmpty then none else some (String.ofList cs)

end Coordination.Text
