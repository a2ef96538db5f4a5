import HackToolchain.Yaml.Cursor

/-!
Scalars of a configuration text: plain ones, quoted ones and blocks. In a plain or quoted scalar that
goes over several lines one line end counts as a blank, and of more in a row the first does not count.
-/

namespace HackToolchain.Yaml.Token

open Reading

/-! ### White space in scalars -/

/-- White space inside a scalar: blanks on one line, or the first line end and those after it. -/
structure Spacing where
  blanks : Text := []
  first : Option Text := none
  others : Text := []
deriving Repr

/-- White space as it counts between two pieces of a scalar: a single line end becomes a blank. -/
def Spacing.fold (s : Spacing) : Text :=
  match s.first with
  | none => s.blanks
  | some first =>
    if first ≠ [Text.newline] then first ++ s.others else if s.others = [] then [32] else s.others

def Spacing.hasBreak (s : Spacing) : Bool := s.first.isSome

/-- Takes white space in a scalar that starts on a line. A tab where a line is less indented than
`indent` is refused. -/
def spacing (start indent : Nat) : (fuel : Nat) → Spacing → Reading Spacing
  | 0, s => return s
  | fuel + 1, s => do
    let c ← get
    if isSpace c.next then
      if s.hasBreak then
        if c.next = '\t' ∧ c.column < indent then fail start "found a tab character that violates indentation"
        else
          skip
          need 1
          spacing start indent fuel s
      else
        let blank ← take
        need 1
        spacing start indent fuel { s with blanks := s.blanks ++ blank }
    else if isBreak c.next then
      need 2
      let ending ← takeLine
      need 1
      spacing start indent fuel
        (if s.hasBreak then { s with others := s.others ++ ending } else { s with blanks := [], first := some ending })
    else return s

/-! ### Plain scalars -/

/-- Whether a plain scalar ends in front of the next character. -/
def endsPlain (inFlow : Bool) (c : Cursor) : Bool :=
  isGap c.next || (c.next == ':' && isGap (c.ahead 1)) ||
    (inFlow && ",?[]\x7b\x7d".toList.contains c.next)

/-- Takes the characters of a plain scalar up to white space, behind what was taken of it. -/
def plainWord (inFlow : Bool) : (fuel : Nat) → Array UInt8 → Spacing → Reading (Array UInt8 × Spacing)
  | 0, text, space => return (text, space)
  | fuel + 1, text, space => do
    if endsPlain inFlow (← get) then return (text, space)
    else
      let c ← take
      need 2
      plainWord inFlow fuel (text ++ (space.fold ++ c).toArray) {}

/-- Takes a plain scalar, which goes on over lines that are indented at least so far, and says whether it
ended with a line. -/
def plainScalar (inFlow : Bool) (indent : Nat) : Reading (Text × Bool) := do
  let c ← get
  loop c.line c.limit #[] {}
where
  /-- Takes what is left of the scalar. -/
  loop (start : Nat) : (fuel : Nat) → Array UInt8 → Spacing → Reading (Text × Bool)
    | 0, text, space => return (text.toList, space.hasBreak)
    | fuel + 1, text, space => do
      need 4
      let c ← get
      if c.atDocumentMark || c.next == '#' then return (text.toList, space.hasBreak)
      else
        let (text, space) ← plainWord inFlow c.limit text space
        let c ← get
        if !(isSpace c.next || isBreak c.next) then return (text.toList, space.hasBreak)
        else
          need 1
          let space ← spacing start indent c.limit space
          if !inFlow && (← get).column < indent then return (text.toList, space.hasBreak)
          else loop start fuel text space

/-! ### Quoted scalars -/

/-- Takes the character whose hexadecimal code of a number of digits comes next. -/
def codedCharacter (start digits : Nat) : Reading Text := do
  need digits
  let c ← get
  match (List.range digits).mapM fun place => hexValue? (c.ahead place) with
  | none => fail start "did not find expected hexdecimal number"
  | some values =>
    let code := values.foldl (fun n v => 16 * n + v) 0
    if (0xD800 ≤ code ∧ code ≤ 0xDFFF) ∨ 0x10FFFF < code then
      fail start "found invalid Unicode character escape code"
    else
      (List.range digits).forM fun _ => skip
      return Text.ofChar (Char.ofNat code)

/-- What a character behind a backslash stands for, or the number of digits of the code behind it. -/
def escape? : Char → Option (Text ⊕ Nat)
  | '0' => some (.inl [0])
  | 'a' => some (.inl [7])
  | 'b' => some (.inl [8])
  | 't' | '\t' => some (.inl [9])
  | 'n' => some (.inl [10])
  | 'v' => some (.inl [11])
  | 'f' => some (.inl [12])
  | 'r' => some (.inl [13])
  | 'e' => some (.inl [27])
  | ' ' => some (.inl [32])
  | '"' => some (.inl [34])
  | '\'' => some (.inl [39])
  | '\\' => some (.inl [92])
  | 'N' => some (.inl (Text.ofChar (Char.ofNat 0x85)))
  | '_' => some (.inl (Text.ofChar (Char.ofNat 0xA0)))
  | 'L' => some (.inl (Text.ofChar (Char.ofNat 0x2028)))
  | 'P' => some (.inl (Text.ofChar (Char.ofNat 0x2029)))
  | 'x' => some (.inr 2)
  | 'u' => some (.inr 4)
  | 'U' => some (.inr 8)
  | _ => none

/-- Takes the characters of a quoted scalar up to white space or its end. The spacing says whether a
backslash took the end of a line away. -/
def quotedWord (quote : Char) (start : Nat) : (fuel : Nat) → Array UInt8 → Reading (Array UInt8 × Spacing)
  | 0, text => return (text, {})
  | fuel + 1, text => do
    let c ← get
    if isGap c.next then return (text, {})
    else if c.next = quote then
      if quote = '\'' ∧ c.ahead 1 = '\'' then
        skip
        skip
        need 2
        quotedWord quote start fuel (text.push 39)
      else return (text, {})
    else if c.next = '\\' ∧ quote = '"' then
      if isBreak (c.ahead 1) then
        need 3
        skip
        skipLine
        return (text, { first := some [] })
      else
        match escape? (c.ahead 1) with
        | none => fail start "found unknown escape character"
        | some (.inl value) =>
          skip
          skip
          need 2
          quotedWord quote start fuel (text ++ value.toArray)
        | some (.inr digits) =>
          skip
          skip
          let value ← codedCharacter start digits
          need 2
          quotedWord quote start fuel (text ++ value.toArray)
    else
      let taken ← take
      need 2
      quotedWord quote start fuel (text ++ taken.toArray)

/-- Takes a quoted scalar, the opening quote of which comes next. -/
def quotedScalar (quote : Char) : Reading Text := do
  let c ← get
  skip
  loop c.line c.limit #[]
where
  /-- Takes what is left of the scalar. -/
  loop (start : Nat) : (fuel : Nat) → Array UInt8 → Reading Text
    | 0, _ => fail start "found unexpected end of stream"
    | fuel + 1, text => do
      need 4
      let c ← get
      if c.atDocumentMark then fail start "found unexpected document indicator"
      else if c.next = textEnd then fail start "found unexpected end of stream"
      else
        let (text, space) ← quotedWord quote start c.limit text
        need 1
        if (← next) = quote then
          skip
          return text.toList
        else
          let space ← spacing start 0 c.limit space
          loop start fuel (text ++ space.fold.toArray)

/-! ### Blocks -/

/-- What becomes of the line ends behind a block: all are dropped, all but the first, or none. -/
inductive Chomping
  | strip
  | clip
  | keep
deriving DecidableEq, Repr

/-- Takes the sign that says what becomes of the line ends behind a block. -/
def chomping? : Reading (Option Chomping) := do
  need 1
  match ← next with
  | '+' =>
    skip
    return some .keep
  | '-' =>
    skip
    return some .strip
  | _ => return none

/-- Takes the digit that says how far a block is indented. -/
def increment? (start : Nat) : Reading (Option Nat) := do
  need 1
  let c ← next
  if c = '0' then fail start "found an indentation indicator equal to 0"
  else if c.isDigit then
    skip
    return some (c.toNat - 48)
  else return none

/-- Takes sign and digit in either order. -/
def blockHeader (start : Nat) : Reading (Chomping × Option Nat) := do
  match ← chomping? with
  | some chomping => return (chomping, ← increment? start)
  | none =>
    match ← increment? start with
    | some increment => return ((← chomping?).getD .clip, some increment)
    | none => return (.clip, none)

/-- Passes over the rest of a line, which holds at most a comment. -/
def restOfLine (start : Nat) (doing : Text) : Reading Unit := do
  skipWhile isSpace
  if (← next) = '#' then skipWhile fun c => !isLineEnd c
  if isLineEnd (← next) then
    if isBreak (← next) then
      need 2
      skipLine
  else fail start doing

/-- Takes the line ends in front of a line of a block and passes over its indentation. Where that is not
known yet it is as far as the line goes, but further than the collection around the block. -/
def blockBreaks (start : Nat) (around : Int) (indent : Option Nat) : Reading (Text × Nat) := do
  loop (← get).limit 0 []
where
  /-- Takes line ends behind those taken, with the widest line so far. -/
  loop : (fuel : Nat) → (widest : Nat) → Text → Reading (Text × Nat)
    | 0, widest, breaks => return (breaks, indent.getD widest)
    | fuel + 1, widest, breaks => do
      let wanted (column : Nat) : Bool := indent.all (column < ·)
      spaces (← get).limit
      let c ← get
      let widest := max widest c.column
      if wanted c.column && c.next == '\t' then
        fail start "found a tab character where an indentation space is expected"
      else if isBreak c.next then
        need 2
        let ending ← takeLine
        loop fuel widest (breaks ++ ending)
      else return (breaks, indent.getD (max 1 (max widest (around + 1).toNat)))
  /-- Passes over spaces of the indentation. -/
  spaces : (fuel : Nat) → Reading Unit
    | 0 => return
    | fuel + 1 => do
      need 1
      let c ← get
      if indent.all (c.column < ·) && c.next == ' ' then
        skip
        spaces fuel

/-- The lines of a block taken so far: their text, the end of the last one, the line ends behind it, and
whether it starts with a blank. -/
structure BlockLines where
  text : Array UInt8 := #[]
  ending : Text := []
  breaks : Text := []
  blank : Bool := false
deriving Repr

/-- What comes between the lines taken and one more line. In a folded block a single line end between
lines that do not start with a blank becomes a blank itself. -/
def BlockLines.joint (lines : BlockLines) (literal blank : Bool) : Text :=
  if !literal && !lines.blank && !blank && lines.ending.head? == some Text.newline then
    if lines.breaks = [] then [32] else lines.breaks
  else lines.ending ++ lines.breaks

/-- Takes the lines of a block. -/
def blockLines (literal : Bool) (start : Nat) (around : Int) (indent : Nat) :
    (fuel : Nat) → BlockLines → Reading BlockLines
  | 0, lines => return lines
  | fuel + 1, lines => do
    need 1
    let c ← get
    if c.column = indent ∧ c.next ≠ textEnd then
      let blank := isSpace c.next
      let content ← takeWhile fun c => !isLineEnd c
      need 2
      let ending ← takeLine
      let (breaks, _) ← blockBreaks start around (some indent)
      blockLines literal start around indent fuel
        { text := lines.text ++ (lines.joint literal blank ++ content).toArray, ending, breaks, blank }
    else return lines

/-- Takes a block, the sign of which comes next. -/
def blockScalar (literal : Bool) (around : Int) : Reading Text := do
  let c ← get
  skip
  let (chomping, increment) ← blockHeader c.line
  restOfLine c.line "did not find expected comment or line break"
  let indent := increment.map fun n => if 0 ≤ around then around.toNat + n else n
  let (breaks, indent) ← blockBreaks c.line around indent
  let lines ← blockLines literal c.line around indent c.limit { breaks }
  let tail : Text := match chomping with
    | .strip => []
    | .clip => lines.ending
    | .keep => lines.ending ++ lines.breaks
  return lines.text.toList ++ tail

end HackToolchain.Yaml.Token
