import Coordination.Text.Unprintable

/-!
Texts between double quotes as they stand in messages: quotes, backslashes, line ends, tabs and
the null character have escapes of two characters, and what cannot be seen is written by its
number in hexadecimal.
-/

namespace Coordination.Text

/-- A code point by its number, with no zero in front. -/
def numericEscape (n : Nat) : List Char :=
  ['\\', 'u', '\x7b'] ++ Nat.toDigits 16 n ++ ['\x7d']

def quoteChar (c : Char) : List Char :=
  if c = '\x00' then ['\\', '0']
  else if c = '\t' then ['\\', 't']
  else if c = '\r' then ['\\', 'r']
  else if c = '\n' then ['\\', 'n']
  else if c = '"' then ['\\', '"']
  else if c = '\\' then ['\\', '\\']
  else if isHidden c then numericEscape c.toNat
  else [c]

def quoted (s : String) : String :=
  String.ofList ('"' :: (s.toList.flatMap quoteChar ++ ['"']))

/-- Texts between quotes in brackets, with commas between them. -/
def quotedList (l : List String) : String :=
  "[" ++ String.intercalate ", " (l.map quoted) ++ "]"

end Coordination.Text
