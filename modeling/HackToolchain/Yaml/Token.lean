import HackToolchain.Text.Utf8

/-!
The tokens of a configuration text, and the errors in it. Lines are counted from 1.
-/

namespace HackToolchain.Yaml

/-- Why a text is not well-formed. The line is 0 where none is named. -/
structure SyntaxError where
  line : Nat
  problem : Text
deriving DecidableEq, Repr

namespace SyntaxError

def message (e : SyntaxError) : Text :=
  let place : Text := if e.line = 0 then [] else "line " ++ Text.ofNat e.line ++ ": "
  "yaml: " ++ place ++ e.problem

/-- An error in a token. It names the line where the token or its key starts, or the line where reading
stopped if that is the first one; the first line is never named. -/
def ofToken (start stop : Nat) (problem : Text) : SyntaxError :=
  { line := if start ≠ 1 then start else if stop ≠ 1 then stop else 0, problem }

/-- An error in the order of tokens. It names the line before the collection's start, or the line before
the unexpected token if the collection starts the text. -/
def ofOrder (start stop : Nat) (problem : Text) : SyntaxError :=
  { line := if start ≠ 1 then start - 1 else stop - 1, problem }

end SyntaxError

/-- The kinds of tokens. A handle is short for the start of a tag. -/
inductive Token.Form
  | version (major minor : Nat)
  | handle (name start : Text)
  | documentStart
  | documentEnd
  | textEnd
  | blockSequence
  | blockMapping
  | blockEnd
  | flowSequence
  | flowSequenceEnd
  | flowMapping
  | flowMappingEnd
  | flowEntry
  | blockEntry
  | key
  | value
  | anchor (name : Text)
  | alias (name : Text)
  | tag (handle suffix : Text)
  | scalar (text : Text) (plain : Bool)
deriving DecidableEq, Repr

/-- A token and the line it starts on. -/
structure Token where
  form : Token.Form
  line : Nat
deriving DecidableEq, Repr

namespace Token

/-! ### Characters -/

/-- What stands behind the last character of a text. -/
def textEnd : Char := Char.ofNat 0

def isSpace (c : Char) : Bool := c == ' ' || c == '\t'

def isBreak (c : Char) : Bool :=
  let n := c.toNat
  n == 10 || n == 13 || n == 0x85 || n == 0x2028 || n == 0x2029

/-- The end of a line or of the text. -/
def isLineEnd (c : Char) : Bool := isBreak c || c == textEnd

/-- A space, the end of a line or the end of the text. -/
def isGap (c : Char) : Bool := isSpace c || isLineEnd c

def isWord (c : Char) : Bool := c.isAlphanum || c == '_' || c == '-'

def hexValue? (c : Char) : Option Nat :=
  if '0' ≤ c ∧ c ≤ '9' then some (c.toNat - 48)
  else if 'a' ≤ c ∧ c ≤ 'f' then some (c.toNat - 87)
  else if 'A' ≤ c ∧ c ≤ 'F' then some (c.toNat - 55)
  else none

end Token

end HackToolchain.Yaml
