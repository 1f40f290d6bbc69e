/-!
JSON values and their compact written form: no blanks, members in the order they stand, and in
strings only the quote, the backslash and characters below the blank escaped.
-/

namespace Coordination

/-- A JSON value to be written. Every number that the library writes is an integer. -/
inductive Json where
  | null
  | bool (b : Bool)
  | int (n : Int)
  | str (s : String)
  | arr (items : List Json)
  | obj (members : List (String × Json))
  deriving Repr, Inhabited

namespace Json

def nat (n : Nat) : Json := .int n

/-- A value that may be absent, absent ones as `null`. -/
def ofOption {α : Type} (f : α → Json) : Option α → Json
  | some a => f a
  | none => .null

def hexDigit (n : Nat) : Char := Nat.digitChar n

/-- The written form of one character inside a string. -/
def escape (c : Char) : List Char :=
  if c = '"' then ['\\', '"']
  else if c = '\\' then ['\\', '\\']
  else if c = '\n' then ['\\', 'n']
  else if c = '\r' then ['\\', 'r']
  else if c = '\t' then ['\\', 't']
  else if c = '\x08' then ['\\', 'b']
  else if c = '\x0c' then ['\\', 'f']
  else if c.toNat < 32 then ['\\', 'u', '0', '0', hexDigit (c.toNat / 16), hexDigit (c.toNat % 16)]
  else [c]

def escapeAll : List Char → List Char
  | [] => []
  | c :: r => escape c ++ escapeAll r

def quote (s : String) : List Char := '"' :: (escapeAll s.toList ++ ['"'])

def decimal : Int → List Char
  | .ofNat n => Nat.toDigits 10 n
  | .negSucc n => '-' :: Nat.toDigits 10 (n + 1)

mutual
/-- The characters of the compact written form. -/
def chars : Json → List Char
  | .null => ['n', 'u', 'l', 'l']
  | .bool true => ['t', 'r', 'u', 'e']
  | .bool false => ['f', 'a', 'l', 's', 'e']
  | .int n => decimal n
  | .str s => quote s
  | .arr items => '[' :: (itemChars items ++ [']'])
  | .obj members => '\x7b' :: (memberChars members ++ ['\x7d'])

def itemChars : List Json → List Char
  | [] => []
  | [v] => v.chars
  | v :: w :: r => v.chars ++ ',' :: itemChars (w :: r)

def memberChars : List (String × Json) → List Char
  | [] => []
  | [(k, v)] => quote k ++ ':' :: v.chars
  | (k, v) :: m :: r => quote k ++ ':' :: (v.chars ++ ',' :: memberChars (m :: r))
end

/-- The compact written form. -/
def render (v : Json) : String := String.ofList v.chars

end Json

end Coordination
