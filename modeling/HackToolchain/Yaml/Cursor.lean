import HackToolchain.Yaml.Stream
import HackToolchain.Yaml.Token

/-!
Reading a stream character by character. A character can be looked at once it is available, and asking
for more than there is fails where the stream has a fault.
-/

namespace HackToolchain.Yaml

/-- A position in a stream: the index, line and column of the next character, the lines that ended since
the last one that was no space, and how far characters are available. The window starts where the next
character was when more of them were made available last. -/
structure Cursor where
  stream : Stream
  index : Nat := 0
  line : Nat := 1
  column : Nat := 0
  lineEnds : Nat := 0
  available : Nat := 0
  window : Nat := 0
deriving Repr

namespace Cursor

open Token

def ahead (c : Cursor) (places : Nat) : Char := c.stream.characters.getD (c.index + places) textEnd

def next (c : Cursor) : Char := c.ahead 0

/-- Whether a mark of the document structure comes next, at the start of a line. -/
def atDocumentMark (c : Cursor) : Bool :=
  let all (mark : Char) : Bool := c.ahead 0 == mark && c.ahead 1 == mark && c.ahead 2 == mark
  c.column == 0 && (all '-' || all '.') && isGap (c.ahead 3)

/-- Whether the window starts with a byte order mark. -/
def marksOrder (c : Cursor) : Bool := (c.stream.characters.getD c.window textEnd).toNat == 0xFEFF

/-- More steps than a reading that moves on with each of them can take. -/
def limit (c : Cursor) : Nat := c.stream.characters.size - c.index + 2

def step (c : Cursor) : Cursor :=
  { c with
    index := c.index + 1
    column := c.column + 1
    lineEnds := if isSpace c.next then c.lineEnds else 0 }

/-- The position after the end of a line; a carriage return and a line feed are one end. -/
def stepLine (c : Cursor) : Cursor :=
  if isBreak c.next then
    { c with
      index := if c.next = '\r' ∧ c.ahead 1 = '\n' then c.index + 2 else c.index + 1
      line := c.line + 1
      column := 0
      lineEnds := c.lineEnds + 1 }
  else c

end Cursor

abbrev Reading := StateT Cursor (Except SyntaxError)

namespace Reading

open Token

/-- Makes characters available. Behind the last one only one end at a time is. -/
def need (count : Nat) : Reading Unit := fun c =>
  if c.index + count ≤ c.available then .ok ((), c)
  else
    match c.stream.reach? (c.index + count), c.stream.fault with
    | some available, _ => .ok ((), { c with available, window := c.index })
    | none, some problem => .error ⟨0, problem⟩
    | none, none =>
      .ok ((), { c with available := max c.available c.stream.characters.size + 1, window := c.index })

/-- Fails in a token that starts on a line. -/
def fail {α : Type} (start : Nat) (problem : Text) : Reading α := fun c =>
  .error (.ofToken start c.line problem)

def next : Reading Char := return (← get).next

def ahead (places : Nat) : Reading Char := return (← get).ahead places

def skip : Reading Unit := modify Cursor.step

def skipLine : Reading Unit := modify Cursor.stepLine

def take : Reading Text := do
  let c ← next
  skip
  return Text.ofChar c

/-- Takes the end of a line, as it counts in a scalar. -/
def takeLine : Reading Text := do
  let c ← next
  skipLine
  return if c.toNat = 0x2028 ∨ c.toNat = 0x2029 then Text.ofChar c else if isBreak c then [Text.newline] else []

def skipWhile (kind : Char → Bool) : Reading Unit := do loop (← get).limit
where
  /-- Passes over at most as many characters of the kind. -/
  loop : Nat → Reading Unit
    | 0 => return
    | fuel + 1 => do
      need 1
      if kind (← next) then
        skip
        loop fuel

def takeWhile (kind : Char → Bool) : Reading Text := do loop (← get).limit #[]
where
  /-- Takes at most as many characters of the kind. -/
  loop : Nat → Array UInt8 → Reading Text
    | 0, taken => return taken.toList
    | fuel + 1, taken => do
      need 1
      if kind (← next) then loop fuel (taken ++ (← take).toArray) else return taken.toList

/-! ### Comments -/

/-- The characters that are looked at for a comment. -/
def commentReach : Nat := 512

/-- Passes over everything up to the end of the line on which the character with an index stands. -/
def skipThrough (index : Nat) : (fuel : Nat) → Reading Unit
  | 0 => return
  | fuel + 1 => do
    need 1
    let c ← get
    if isLineEnd c.next then
      if c.index < index then
        need 2
        skipLine
        skipThrough index fuel
    else
      skip
      skipThrough index fuel

/-- Passes over a comment on the line of a token that was just read. -/
def skipLineComment : Reading Unit := do
  if (← get).lineEnds = 0 then loop commentReach 0
where
  /-- Looks for the comment from so many places ahead on. -/
  loop : Nat → Nat → Reading Unit
    | 0, _ => return
    | fuel + 1, places => do
      need (places + 1)
      let c ← ahead places
      if isSpace c then loop fuel (places + 1)
      else if c = '#' then
        let cursor ← get
        skipThrough (cursor.index + places) cursor.limit

/-- Passes over comments, the first of which comes next, and over the white space and line ends between
them. -/
def skipComments : Reading Unit := do loop (commentReach * (← get).limit) 0
where
  /-- Looks for the next comment from so many places ahead on. -/
  loop : Nat → Nat → Reading Unit
    | 0, _ => return
    | fuel + 1, places =>
      if commentReach ≤ places then return
      else do
        need (places + 1)
        let c ← ahead places
        if isSpace c || c = '\n' || c = '\r' then loop fuel (places + 1)
        else if c = '#' then
          let cursor ← get
          skipThrough (cursor.index + places) cursor.limit
          loop fuel 1
        else if isBreak c then need (places + 2)

end Reading

end HackToolchain.Yaml
