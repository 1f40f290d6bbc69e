import Coordination.Json.Number

/-!
The tokens of a JSON text. The lexer is a machine that takes one character at a time, so what it
does to two texts in a row is one run after the other. White space is the blank, the tab and the
two line ends; a string may not hold a character below the blank.
-/

namespace Coordination.Json

/-- A token. The text of a string is absent when one of its escapes is half of a surrogate pair
without the other half: such a string can be skipped but not kept. -/
inductive Token where
  | openArray
  | closeArray
  | openObject
  | closeObject
  | comma
  | colon
  | null
  | bool (b : Bool)
  | num (n : Number)
  | str (text : Option String)
  deriving DecidableEq, Repr

namespace Token

def isBlank (c : Char) : Bool := c = ' ' ∨ c = '\t' ∨ c = '\n' ∨ c = '\r'

/-- The characters of words and numbers. -/
def isBare (c : Char) : Bool := c.isAlphanum ∨ c = '+' ∨ c = '-' ∨ c = '.'

/-- The tokens of one character. -/
def mark? : Char → Option Token
  | '[' => some .openArray
  | ']' => some .closeArray
  | '\x7b' => some .openObject
  | '\x7d' => some .closeObject
  | ',' => some .comma
  | ':' => some .colon
  | _ => none

/-- A run of bare characters is one of the three words or a number. -/
def ofBare (cs : List Char) : Option Token :=
  if cs = ['n', 'u', 'l', 'l'] then some .null
  else if cs = ['t', 'r', 'u', 'e'] then some (.bool true)
  else if cs = ['f', 'a', 'l', 's', 'e'] then some (.bool false)
  else (Number.parse cs).map .num

def hexValue? (c : Char) : Option Nat :=
  if '0' ≤ c ∧ c ≤ '9' then some (c.toNat - 48)
  else if 'a' ≤ c ∧ c ≤ 'f' then some (c.toNat - 87)
  else if 'A' ≤ c ∧ c ≤ 'F' then some (c.toNat - 55)
  else none

/-- The character of a one-letter escape. -/
def unescape? : Char → Option Char
  | '"' => some '"'
  | '\\' => some '\\'
  | '/' => some '/'
  | 'b' => some '\x08'
  | 'f' => some '\x0c'
  | 'n' => some '\n'
  | 'r' => some '\r'
  | 't' => some '\t'
  | _ => none

/-- The first half of a surrogate pair. -/
def isHigh (n : Nat) : Bool := 0xD800 ≤ n ∧ n < 0xDC00

/-- The second half of a surrogate pair. -/
def isLow (n : Nat) : Bool := 0xDC00 ≤ n ∧ n < 0xE000

/-- The characters that code units stand for: pairs are put together, and a half alone has no
meaning. -/
def text? : List Nat → Option (List Char)
  | [] => some []
  | [n] => if isHigh n ∨ isLow n then none else some [Char.ofNat n]
  | n :: m :: r =>
    if isHigh n then
      if isLow m then
        (text? r).map (Char.ofNat (0x10000 + (n - 0xD800) * 0x400 + (m - 0xDC00)) :: ·)
      else none
    else if isLow n then none
    else (text? (m :: r)).map (Char.ofNat n :: ·)

end Token

/-- What the lexer is inside of. Collected characters and code units are kept in reverse. -/
inductive Lexer.Mode where
  | between
  | bare (chars : List Char)
  | text (units : List Nat)
  | escape (units : List Nat)
  | hex (units : List Nat) (value : Nat) (missing : Nat)
  deriving DecidableEq, Repr

/-- The tokens found so far, in reverse, and what the lexer is inside of. -/
structure Lexer where
  tokens : List Token
  mode : Lexer.Mode
  deriving DecidableEq, Repr

namespace Lexer

def start : Lexer := ⟨[], .between⟩

/-- A character between tokens. -/
def between (tokens : List Token) (c : Char) : Option Lexer :=
  if Token.isBlank c then some ⟨tokens, .between⟩
  else if c = '"' then some ⟨tokens, .text []⟩
  else if Token.isBare c then some ⟨tokens, .bare [c]⟩
  else (Token.mark? c).map fun t => ⟨t :: tokens, .between⟩

/-- The string that its code units, in reverse, stand for. -/
def closeText (units : List Nat) : Token := .str ((Token.text? units.reverse).map String.ofList)

def step (l : Lexer) (c : Char) : Option Lexer :=
  match l.mode with
  | .between => between l.tokens c
  | .bare chars =>
    if Token.isBare c then some ⟨l.tokens, .bare (c :: chars)⟩
    else (Token.ofBare chars.reverse).bind fun t => between (t :: l.tokens) c
  | .text units =>
    if c = '"' then some ⟨closeText units :: l.tokens, .between⟩
    else if c = '\\' then some ⟨l.tokens, .escape units⟩
    else if c.toNat < 32 then none
    else some ⟨l.tokens, .text (c.toNat :: units)⟩
  | .escape units =>
    if c = 'u' then some ⟨l.tokens, .hex units 0 3⟩
    else (Token.unescape? c).map fun u => ⟨l.tokens, .text (u.toNat :: units)⟩
  | .hex units value missing =>
    (Token.hexValue? c).map fun d =>
      match missing with
      | 0 => ⟨l.tokens, .text ((16 * value + d) :: units)⟩
      | m + 1 => ⟨l.tokens, .hex units (16 * value + d) m⟩

/-- The tokens at the end of the text, unless it ends inside a string or a bad word. -/
def finish (l : Lexer) : Option (List Token) :=
  match l.mode with
  | .between => some l.tokens.reverse
  | .bare chars => (Token.ofBare chars.reverse).map fun t => (t :: l.tokens).reverse
  | _ => none

end Lexer

def tokenize (cs : List Char) : Option (List Token) :=
  (cs.foldlM Lexer.step Lexer.start).bind Lexer.finish

end Coordination.Json
