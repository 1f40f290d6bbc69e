import Coordination.Time.Calendar
import Coordination.Text.Blank

/-!
Moments in universal time and their text. Texts are read in a generous form of RFC 3339: blanks
may stand in front of numbers and separators, numbers may have fewer digits, and the offset may
be `UTC` or leave out its colon. They are written with the offset `Z` and with as many digits of
the fraction as are needed, in groups of three.
-/

namespace Coordination.Time

/-- A moment: whole seconds since the start of 1970, and nanoseconds, of which a leap second has a
thousand million more. -/
structure Timestamp where
  seconds : Int
  nanos : Nat
  deriving DecidableEq, Repr

namespace Timestamp

def firstYear : Int := -262143

def lastYear : Int := 262142

def inRange (days : Int) : Bool :=
  (Date.toDays ⟨firstYear, 1, 1⟩) ≤ days ∧ days ≤ (Date.toDays ⟨lastYear, 12, 31⟩)

def skipBlank (cs : List Char) : List Char := cs.dropWhile Text.isBlank

def isDigit (c : Char) : Bool := '0' ≤ c ∧ c ≤ '9'

def value (digits : List Char) : Nat := digits.foldl (fun n c => 10 * n + (c.toNat - 48)) 0

def takeAtMost (most : Nat) (cs : List Char) : List Char := (cs.take most).takeWhile isDigit

/-- At most `most` digits and at least one, as a number, and the rest. -/
def number? (most : Nat) (cs : List Char) : Option (Nat × List Char) :=
  let digits := takeAtMost most cs
  if digits.isEmpty then none else some (value digits, cs.drop digits.length)

/-- A number after blanks. -/
def field? (cs : List Char) : Option (Nat × List Char) := number? 2 (skipBlank cs)

def mark? (c : Char) (cs : List Char) : Option (List Char) :=
  match skipBlank cs with
  | d :: r => if d = c then some r else none
  | [] => none

/-- A year after blanks: four digits, or a sign and any number of digits. -/
def year? (cs : List Char) : Option (Int × List Char) :=
  match skipBlank cs with
  | '-' :: r => (number? r.length r).map fun p => (-(p.1 : Int), p.2)
  | '+' :: r => (number? r.length r).map fun p => ((p.1 : Int), p.2)
  | r => (number? 4 r).map fun p => ((p.1 : Int), p.2)

/-- Nine digits of a fraction of a second; further ones are skipped. -/
def fraction? : List Char → Option (Nat × List Char)
  | '.' :: r => do
    let (n, rest) ← number? 9 r
    let places := (takeAtMost 9 r).length
    pure (n * Nat.pow 10 (9 - places), rest.dropWhile isDigit)
  | r => some (0, r)

/-- Hours and minutes of an offset, in seconds. -/
def offsetSeconds? : List Char → Option (Nat × List Char)
  | a :: b :: r =>
    if isDigit a ∧ isDigit b then
      match r.dropWhile fun c => c = ':' ∨ Text.isBlank c with
      | c :: d :: rest =>
        if isDigit c ∧ isDigit d ∧ value [c, d] < 60 then
          some (value [a, b] * 3600 + value [c, d] * 60, rest)
        else none
      | _ => none
    else none
  | _ => none

/-- The offset from universal time. The long minus sign is taken as well. -/
def offset? (cs : List Char) : Option (Int × List Char) :=
  if (cs.take 3).map Char.toUpper = ['U', 'T', 'C'] then some (0, cs.drop 3)
  else
    match cs with
    | 'Z' :: r | 'z' :: r => some (0, r)
    | '+' :: r => (offsetSeconds? r).map fun p => ((p.1 : Int), p.2)
    | '-' :: r | '\u2212' :: r => (offsetSeconds? r).map fun p => (-(p.1 : Int), p.2)
    | _ => none

def date? (cs : List Char) : Option (Date × List Char) := do
  let (year, r) ← year? cs
  let r ← mark? '-' r
  let (month, r) ← field? r
  let r ← mark? '-' r
  let (day, r) ← field? r
  let date : Date := ⟨year, month, day⟩
  guard (firstYear ≤ year ∧ year ≤ lastYear ∧ date.valid)
  pure (date, r)

/-- Seconds of the day and nanoseconds. The second sixty is a leap second after the
fifty-ninth. -/
def timeOfDay? (cs : List Char) : Option ((Nat × Nat) × List Char) := do
  let (hour, r) ← field? cs
  let r ← mark? ':' r
  let (minute, r) ← field? r
  let r ← mark? ':' r
  let (second, r) ← field? r
  let (nanos, r) ← fraction? r
  guard (hour < 24 ∧ minute < 60 ∧ second ≤ 60)
  let clock := hour * 3600 + minute * 60
  if second = 60 then pure ((clock + 59, 1000000000 + nanos), r)
  else pure ((clock + second, nanos), r)

def separator? : List Char → Option (List Char)
  | 't' :: r | 'T' :: r | ' ' :: r => some r
  | _ => none

def parse (text : String) : Option Timestamp := do
  let (date, r) ← date? text.toList
  let r ← separator? r
  let ((clock, nanos), r) ← timeOfDay? r
  let (offset, r) ← offset? (skipBlank r)
  guard ((skipBlank r).isEmpty ∧ offset.natAbs < 86400)
  let seconds := date.toDays * 86400 + (clock : Int) - offset
  guard (inRange (seconds.fdiv 86400))
  pure ⟨seconds, nanos⟩

def padded (width n : Nat) : String :=
  let digits := Nat.toDigits 10 n
  String.ofList (List.replicate (width - digits.length) '0' ++ digits)

/-- A year has four digits, or a sign and at least four. -/
def yearText (year : Int) : String :=
  if 0 ≤ year ∧ year ≤ 9999 then padded 4 year.toNat
  else (if year < 0 then "-" else "+") ++ padded 4 year.natAbs

/-- As many groups of three digits as the fraction needs. -/
def fractionText (nanos : Nat) : String :=
  if nanos = 0 then ""
  else if nanos % 1000000 = 0 then "." ++ padded 3 (nanos / 1000000)
  else if nanos % 1000 = 0 then "." ++ padded 6 (nanos / 1000)
  else "." ++ padded 9 nanos

/-- The text of a moment; a leap second is the second sixty. -/
def render (t : Timestamp) : String :=
  let days := t.seconds.fdiv 86400
  let clock := (t.seconds - days * 86400).toNat
  let date := Date.ofDays days
  let leap := t.nanos / 1000000000
  yearText date.year ++ "-" ++ padded 2 date.month ++ "-" ++ padded 2 date.day ++ "T" ++
    padded 2 (clock / 3600) ++ ":" ++ padded 2 (clock / 60 % 60) ++ ":" ++
    padded 2 (clock % 60 + leap) ++ fractionText (t.nanos % 1000000000) ++ "Z"

end Timestamp

end Coordination.Time
