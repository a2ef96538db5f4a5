import HackToolchain.Yaml.Token.Property
import Std.Data.HashMap

/-!
Configuration texts as tokens, read one by one as they are asked for. Indentation becomes tokens of its
own that open and close collections. A key is recognised by the colon after it, so the token that marks
it is put in front of it later, unless that one was handed out already.
-/

namespace HackToolchain.Yaml.Token

/-- A token that turns out to be a key if a colon follows on its line. A required one has to be. -/
structure Candidate where
  possible : Bool := false
  required : Bool := false
  number : Nat := 0
  index : Nat := 0
  line : Nat := 1
  column : Nat := 0
deriving Repr

/-- The tokens that are read but not handed out, how many were handed out, and what decides on the next
one. There is one slot for a candidate for each flow collection around the position and one for the text
itself, which comes first. A token that was made a candidate knows its slot. -/
structure Scan where
  cursor : Cursor
  queue : List Token := []
  handedOut : Nat := 0
  indent : Int := -1
  outer : List Int := []
  slots : Array Candidate := #[{}]
  slotOf : Std.HashMap Nat Nat := {}
  keyAllowed : Bool := true

namespace Scan

def inFlow (s : Scan) : Bool := 1 < s.slots.size

def candidate (s : Scan) : Candidate := s.slots.back?.getD {}

/-- The number of the token that is read next. -/
def nextNumber (s : Scan) : Nat := s.handedOut + s.queue.length

/-- Puts a token in front of the one with a number, or behind all where that one is handed out. -/
def insert (s : Scan) (number : Nat) (t : Token) : Scan :=
  if number < s.handedOut then { s with queue := s.queue ++ [t] }
  else
    let (front, back) := s.queue.splitAt (number - s.handedOut)
    { s with queue := front ++ t :: back }

def push (s : Scan) (form : Form) (line : Nat) : Scan := { s with queue := s.queue ++ [{ form, line }] }

/-- Closes the block collections that are further in than a column. -/
def closeBlocks (line : Nat) (column : Int) : List Int → Scan → Scan
  | [], s => s
  | indent :: outer, s =>
    if s.inFlow || s.indent ≤ column then s
    else closeBlocks line column outer { s.push .blockEnd line with indent, outer }

end Scan

abbrev Scanning := StateT Scan (Except SyntaxError)

namespace Scanning

/-- The deepest nesting of collections. -/
def deepest : Nat := 10000

def read {α : Type} (reading : Reading α) : Scanning α := fun s =>
  match reading s.cursor with
  | .ok (a, cursor) => .ok (a, { s with cursor })
  | .error e => .error e

def fail {α : Type} (start : Nat) (problem : Text) : Scanning α := read (Reading.fail start problem)

def failHere {α : Type} (problem : Text) : Scanning α := do fail (← get).cursor.line problem

/-! ### Keys -/

/-- Whether the candidate in a slot can still become a key: on its line and within 1024 characters. One
that cannot is given up, which fails if it is required. -/
def isLive (slot : Nat) : Scanning Bool := do
  let s ← get
  let c := s.slots.getD slot {}
  if !c.possible then return false
  else if c.line < s.cursor.line || c.index + 1024 < s.cursor.index then
    if c.required then fail c.line "could not find expected ':'"
    else
      set { s with slots := s.slots.setIfInBounds slot { c with possible := false } }
      return false
  else return true

/-- Gives up the innermost candidate, which fails if it is required. -/
def dropCandidate : Scanning Unit := do
  let s ← get
  let c := s.candidate
  if c.possible then
    if c.required then fail c.line "could not find expected ':'"
    else
      set { s with
        slots := s.slots.setIfInBounds (s.slots.size - 1) { c with possible := false }
        slotOf := s.slotOf.erase c.number }

/-- Makes the token that starts at the position a candidate, where keys are allowed. -/
def saveCandidate : Scanning Unit := do
  if (← get).keyAllowed then
    dropCandidate
    let s ← get
    let candidate : Candidate :=
      { possible := true
        required := !s.inFlow && s.indent == s.cursor.column
        number := s.nextNumber
        index := s.cursor.index
        line := s.cursor.line
        column := s.cursor.column }
    set { s with
      slots := s.slots.setIfInBounds (s.slots.size - 1) candidate
      slotOf := s.slotOf.insert candidate.number (s.slots.size - 1) }

/-- Says whether a key can come next. -/
def allowKey (allowed : Bool) : Scanning Unit := modify fun s => { s with keyAllowed := allowed }

/-! ### Indentation -/

/-- Opens a block collection where a column is further in than the collection around it. The token goes
in front of the one with a number. -/
def openBlock (form : Form) (column number line : Nat) : Scanning Unit := do
  let s ← get
  if !s.inFlow && s.indent < column then
    let s := { s with indent := column, outer := s.indent :: s.outer }
    if deepest < s.outer.length then
      fail s.candidate.line ("exceeded max depth of " ++ Text.ofNat deepest)
    else set (s.insert number { form, line })

/-- Opens a block collection at the position, where one is allowed to start. -/
def openBlockHere (form : Form) (problem : Text) : Scanning Unit := do
  let s ← get
  if !s.inFlow then
    if !s.keyAllowed then failHere problem
    else openBlock form s.cursor.column s.nextNumber s.cursor.line

/-- Closes the block collections that are further in than a column, on a line. -/
def closeTo (line : Nat) (column : Int) : Scanning Unit := modify fun s => s.closeBlocks line column s.outer

/-! ### White space and comments -/

/-- Moves to the next token. A tab is white space only where no key can stand. -/
def toToken : (fuel : Nat) → Scanning Unit
  | 0 => return
  | fuel + 1 => do
    read (Reading.need 1)
    let s ← get
    if s.cursor.column = 0 ∧ s.cursor.marksOrder then read Reading.skip
    read (Reading.skipWhile fun c => c == ' ' || (c == '\t' && (s.inFlow || !s.keyAllowed)))
    if (← get).cursor.next = '#' then read Reading.skipComments
    if isBreak (← get).cursor.next then
      read (Reading.need 2)
      read Reading.skipLine
      if !s.inFlow then allowKey true
      toToken fuel

/-! ### Tokens -/

def sign (form : Form) (width : Nat) : Scanning Unit := do
  let line := (← get).cursor.line
  (List.range width).forM fun _ => read Reading.skip
  modify (·.push form line)

def documentMark (form : Form) : Scanning Unit := do
  closeTo (← get).cursor.line (-1)
  dropCandidate
  allowKey false
  sign form 3

def directive : Scanning Unit := do
  let line := (← get).cursor.line
  closeTo line (-1)
  dropCandidate
  allowKey false
  let form ← read directiveForm
  modify (·.push form line)

/-- The start of a flow collection, which can itself be a key. -/
def openFlow (form : Form) : Scanning Unit := do
  saveCandidate
  let s ← get
  let empty : Candidate := { number := s.nextNumber, index := s.cursor.index, line := s.cursor.line }
  set { s with slots := s.slots.push empty }
  if deepest < s.slots.size then fail s.cursor.line ("exceeded max depth of " ++ Text.ofNat deepest)
  allowKey true
  sign form 1

def closeFlow (form : Form) : Scanning Unit := do
  dropCandidate
  modify fun s =>
    if s.inFlow then { s with slotOf := s.slotOf.erase s.candidate.number, slots := s.slots.pop } else s
  allowKey false
  sign form 1

/-- A comma between the members of a flow collection. -/
def flowEntry : Scanning Unit := do
  dropCandidate
  allowKey true
  sign .flowEntry 1

def blockEntry : Scanning Unit := do
  openBlockHere .blockSequence "block sequence entries are not allowed in this context"
  dropCandidate
  allowKey true
  sign .blockEntry 1

/-- The question mark of a key that is not recognised by its colon. -/
def explicitKey : Scanning Unit := do
  openBlockHere .blockMapping "mapping keys are not allowed in this context"
  dropCandidate
  allowKey (!(← get).inFlow)
  sign .key 1

/-- The colon between a key and its value. The innermost candidate is the key, if it is still one. -/
def value : Scanning Unit := do
  let slot := (← get).slots.size - 1
  if ← isLive slot then
    let c := (← get).candidate
    modify (·.insert c.number { form := .key, line := c.line })
    openBlock .blockMapping c.column c.number c.line
    modify fun s =>
      { s with
        slots := s.slots.setIfInBounds slot { c with possible := false }
        slotOf := s.slotOf.erase c.number
        keyAllowed := false }
  else
    openBlockHere .blockMapping "mapping values are not allowed in this context"
    allowKey (!(← get).inFlow)
  sign .value 1

/-- A token that can be a key and behind which none can start. -/
def content (form : Reading Form) : Scanning Unit := do
  saveCandidate
  allowKey false
  let line := (← get).cursor.line
  let form ← read form
  modify (·.push form line)

/-- A scalar without quotes. After one that ended with its line a key can stand. -/
def plain : Scanning Unit := do
  saveCandidate
  let s ← get
  let (text, ended) ← read (plainScalar s.inFlow (s.indent + 1).toNat)
  allowKey ended
  modify (·.push (.scalar text true) s.cursor.line)

/-- A block, behind which a key can stand. -/
def block (literal : Bool) : Scanning Unit := do
  dropCandidate
  allowKey true
  let s ← get
  let text ← read (blockScalar literal s.indent)
  modify (·.push (.scalar text false) s.cursor.line)

/-- Whether a plain scalar can start at a position. -/
def startsPlain (inFlow : Bool) (c : Cursor) : Bool :=
  if c.next = '-' then !isSpace (c.ahead 1)
  else if c.next = '?' ∨ c.next = ':' then !inFlow && !isGap (c.ahead 1)
  else !",[]\x7b\x7d#&*!|>'\"%@`".toList.contains c.next && !isGap c.next

/-- Reads a token that is no mark of the document structure. -/
def inDocument : Scanning Unit := do
  let s ← get
  let c := s.cursor.next
  let gapBehind := isGap (s.cursor.ahead 1)
  if c = '[' then openFlow .flowSequence
  else if c = '\x7b' then openFlow .flowMapping
  else if c = ']' then closeFlow .flowSequenceEnd
  else if c = '\x7d' then closeFlow .flowMappingEnd
  else if c = ',' then flowEntry
  else if c = '-' ∧ gapBehind then blockEntry
  else if c = '?' ∧ (s.inFlow ∨ gapBehind) then explicitKey
  else if c = ':' ∧ (s.inFlow ∨ gapBehind) then value
  else if c = '*' then content (Form.alias <$> anchorName)
  else if c = '&' then content (Form.anchor <$> anchorName)
  else if c = '!' then content tagForm
  else if (c = '|' ∨ c = '>') ∧ !s.inFlow then block (c = '|')
  else if c = '\'' ∨ c = '"' then content ((Form.scalar · false) <$> quotedScalar c)
  else if startsPlain s.inFlow s.cursor then plain
  else failHere "found character that cannot start any token"

/-- The token that ends a text, on a line of its own. -/
def finish : Scanning Unit := do
  modify fun s =>
    let line := if s.cursor.column = 0 then s.cursor.line else s.cursor.line + 1
    { s with cursor := { s.cursor with line, column := 0 } }
  closeTo (← get).cursor.line (-1)
  dropCandidate
  allowKey false
  modify fun s => s.push .textEnd s.cursor.line

/-- Reads a token, and a comment behind it on its line. No comment belongs to a dash alone. -/
def token : Scanning Unit := do
  read (Reading.need 1)
  let start := (← get).cursor
  toToken start.limit
  let s ← get
  closeTo start.line s.cursor.column
  read (Reading.need 4)
  let c := s.cursor.next
  if c = textEnd then finish
  else if s.cursor.column = 0 ∧ c = '%' then directive
  else if s.cursor.atDocumentMark then documentMark (if c = '-' then .documentStart else .documentEnd)
  else
    inDocument
    let s ← get
    if s.queue.getLast?.all fun t => t.form != .blockEntry then read Reading.skipLineComment

/-! ### Tokens on demand -/

/-- Whether the token to be handed out next is a candidate that may still become a key. -/
def headMayBeKey : Scanning Bool := do
  let s ← get
  match s.slotOf[s.handedOut]? with
  | some slot => isLive slot
  | none => return false

/-- Reads tokens until the next one can be handed out: there are two behind it, and it is known whether
it is a key. -/
def fill : (fuel : Nat) → Scanning Unit
  | 0 => return
  | fuel + 1 => do
    if (← get).queue.length < 3 then
      token
      fill fuel
    else if ← headMayBeKey then
      token
      fill fuel

/-- The next token, which is not handed out yet. -/
def peek : Scanning Token := do
  fill ((← get).cursor.limit + 3)
  let s ← get
  return s.queue.head?.getD { form := .textEnd, line := s.cursor.line }

def skip : Scanning Unit := modify fun s => { s with queue := s.queue.drop 1, handedOut := s.handedOut + 1 }

end Scanning

end HackToolchain.Yaml.Token
