/-!
Number literals of JSON texts. A literal without fraction and exponent is an integer, except
`-0`, which is a floating-point number. Other literals are only kept as long as they are finite
in binary64.
-/

namespace Coordination.Json

structure Number where
  negative : Bool
  whole : List Nat
  fraction : Option (List Nat)
  exponent : Option (Bool × List Nat)
  deriving DecidableEq, Repr

namespace Number

def digit? (c : Char) : Option Nat :=
  if '0' ≤ c ∧ c ≤ '9' then some (c.toNat - 48) else none

def takeDigits : List Char → List Nat × List Char
  | [] => ([], [])
  | c :: r =>
    match digit? c with
    | some d => (d :: (takeDigits r).1, (takeDigits r).2)
    | none => ([], c :: r)

def ofDigits (digits : List Nat) : Nat := digits.foldl (fun n d => 10 * n + d) 0

/-- At least one digit, and no zero in front of others. -/
def wholeOk : List Nat → Bool
  | [] => false
  | 0 :: _ :: _ => false
  | _ => true

/-- The fraction at the front, if there is one; a point needs a digit. -/
def takeFraction : List Char → Option (Option (List Nat) × List Char)
  | '.' :: r =>
    let (digits, rest) := takeDigits r
    if digits.isEmpty then none else some (some digits, rest)
  | r => some (none, r)

def takeExponentDigits (negative : Bool) (r : List Char) :
    Option (Option (Bool × List Nat) × List Char) :=
  let (digits, rest) := takeDigits r
  if digits.isEmpty then none else some (some (negative, digits), rest)

def takeSignedExponent : List Char → Option (Option (Bool × List Nat) × List Char)
  | '+' :: r => takeExponentDigits false r
  | '-' :: r => takeExponentDigits true r
  | r => takeExponentDigits false r

/-- The exponent at the front, if there is one. -/
def takeExponent : List Char → Option (Option (Bool × List Nat) × List Char)
  | 'e' :: r | 'E' :: r => takeSignedExponent r
  | r => some (none, r)

/-- The literal after its sign. -/
def parseUnsigned (negative : Bool) (cs : List Char) : Option Number := do
  let (whole, rest) := takeDigits cs
  guard (wholeOk whole)
  let (fraction, rest) ← takeFraction rest
  let (exponent, rest) ← takeExponent rest
  guard rest.isEmpty
  pure { negative, whole, fraction, exponent }

def parse : List Char → Option Number
  | '-' :: r => parseUnsigned true r
  | cs => parseUnsigned false cs

/-- The integer that a literal stands for, if it is written as one. -/
def int? (n : Number) : Option Int :=
  match n.fraction, n.exponent with
  | none, none =>
    if n.negative then
      if n.whole = [0] then none else some (-(ofDigits n.whole : Int))
    else some (ofDigits n.whole)
  | _, _ => none

/-- The first digits that fit a 64-bit word, as a number, and the digits that are left. -/
def significand (n : Nat) : List Nat → Nat × List Nat
  | [] => (n, [])
  | d :: r => if 10 * n + d < 18446744073709551616 then significand (10 * n + d) r else (n, d :: r)

/-- The nearest number with 53 significant bits, a tie to the even one. -/
def nearest53 (n : Nat) : Nat :=
  let shift := n.log2 - 52
  let unit := Nat.pow 2 shift
  let q := n / unit
  let r := 2 * (n % unit)
  (if r > unit ∨ (r = unit ∧ q % 2 = 1) then q + 1 else q) * unit

/-- From here on a product rounds to infinity. -/
def infinite : Nat := Nat.pow 2 1024 - Nat.pow 2 970

/-- A significand and a decimal exponent give a finite number: both are rounded to binary64 and
multiplied there. Beyond the powers of ten of binary64 only zero is finite. -/
def finiteParts (m : Nat) (e : Int) : Bool :=
  if m = 0 ∨ e ≤ 0 then true
  else if 308 < e then false
  else nearest53 m * nearest53 (Nat.pow 10 e.toNat) < infinite

/-- The digits that count, and the power of ten they are to be multiplied by: digits beyond a
64-bit significand are dropped, those before the point still count as places. -/
def scaled (n : Number) : Nat × Int :=
  let (m, wholeRest) := significand 0 n.whole
  let (m, fractionRest) := significand m (n.fraction.getD [])
  let taken := (n.fraction.getD []).length - fractionRest.length
  (m, (wholeRest.length : Int) - (taken : Int))

/-- The value of an exponent that is not absurdly long; every longer one acts like this bound. -/
def exponentValue : Option (Bool × List Nat) → Int
  | none => 0
  | some (negative, digits) =>
    let e : Int := min (ofDigits digits) 2147483647
    if negative then -e else e

/-- A literal whose value fits binary64. -/
def finite (n : Number) : Bool :=
  finiteParts n.scaled.1 (n.scaled.2 + exponentValue n.exponent)

end Number

end Coordination.Json
