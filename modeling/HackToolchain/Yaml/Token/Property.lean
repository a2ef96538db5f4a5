import HackToolchain.Yaml.Token.Scalar

/-!
What a node can be marked with, names and tags, and the directives in front of a document.
-/

namespace HackToolchain.Yaml.Token

open Reading

/-! ### Names -/

/-- Takes the name behind an ampersand or a star. -/
def anchorName : Reading Text := do
  let start := (← get).line
  skip
  let name ← takeWhile isWord
  let c ← next
  if name = [] ∨ !(isGap c || "?:,]\x7d%@`".toList.contains c) then
    fail start "did not find expected alphabetic or numeric character"
  else return name

/-! ### Tags -/

def isTagCharacter (c : Char) : Bool := isWord c || ";/?:@&=+$,.!~*'()[]%".toList.contains c

/-- The number of bytes of a character whose first one is given. -/
def encodedLength (b : Nat) : Nat :=
  if b < 0x80 then 1 else if b < 0xC0 then 0 else if b < 0xE0 then 2 else if b < 0xF0 then 3
  else if b < 0xF8 then 4 else 0

/-- Takes a byte that is written as a percent sign and two digits. -/
def percentByte (start : Nat) : Reading Nat := do
  need 3
  let c ← get
  match hexValue? (c.ahead 1), hexValue? (c.ahead 2) with
  | some high, some low =>
    if c.next = '%' then
      skip
      skip
      skip
      return 16 * high + low
    else fail start "did not find URI escaped octet"
  | _, _ => fail start "did not find URI escaped octet"

/-- Takes a character whose bytes are written as percent signs and digits. -/
def percentCharacter (start : Nat) : Reading Text := do
  let first ← percentByte start
  if encodedLength first = 0 then fail start "found an incorrect leading UTF-8 octet"
  else
    let others ← (List.range (encodedLength first - 1)).mapM fun _ => do
      let b ← percentByte start
      if b / 64 = 2 then return UInt8.ofNat b else fail start "found an incorrect trailing UTF-8 octet"
    return UInt8.ofNat first :: others

/-- Takes the characters of a tag behind what was taken of it. -/
def tagText (start : Nat) : (fuel : Nat) → Array UInt8 → Reading Text
  | 0, text => return text.toList
  | fuel + 1, text => do
    need 1
    let c ← next
    if isTagCharacter c then
      let taken ← if c = '%' then percentCharacter start else take
      tagText start fuel (text ++ taken.toArray)
    else return text.toList

/-- Takes a tag behind what was taken of it; there has to be something. -/
def tagSuffix (start : Nat) (taken : Text) (mayBeEmpty : Bool) : Reading Text := do
  need 1
  if !mayBeEmpty && !isTagCharacter (← next) then fail start "did not find expected tag URI"
  else tagText start (← get).limit taken.toArray

/-- Takes a handle: an exclamation mark, or a name between two of them. -/
def tagHandle (start : Nat) (directive : Bool) : Reading Text := do
  need 1
  if (← next) ≠ '!' then fail start "did not find expected '!'"
  else
    skip
    let name ← takeWhile isWord
    if (← next) = '!' then
      skip
      return 33 :: name ++ [33]
    else if directive ∧ name ≠ [] then fail start "did not find expected '!'"
    else return 33 :: name

/-- Takes a tag, as a handle and what comes behind it. -/
def tagParts (start : Nat) : Reading (Text × Text) := do
  need 2
  if (← ahead 1) = '<' then
    skip
    skip
    let suffix ← tagSuffix start [] false
    if (← next) ≠ '>' then fail start "did not find the expected '>'"
    else
      skip
      return ([], suffix)
  else
    let handle ← tagHandle start false
    if 1 < handle.length ∧ handle.getLast? = some 33 then return (handle, ← tagSuffix start [] false)
    else
      let suffix ← tagSuffix start (handle.drop 1) true
      return if suffix = [] then ([], [33]) else ([33], suffix)

def tagForm : Reading Form := do
  let start := (← get).line
  let (handle, suffix) ← tagParts start
  need 1
  if isGap (← next) then return .tag handle suffix
  else fail start "did not find expected whitespace or line break"

/-! ### Directives -/

def versionNumber (start : Nat) : Reading Nat := do
  let digits ← takeWhile Char.isDigit
  if digits = [] then fail start "did not find expected version number"
  else if 2 < digits.length then fail start "found extremely long version number"
  else return Text.value digits

def versionForm (start : Nat) : Reading Form := do
  skipWhile isSpace
  let major ← versionNumber start
  if (← next) ≠ '.' then fail start "did not find expected digit or '.' character"
  else
    skip
    return .version major (← versionNumber start)

/-- Takes the directive that says what a handle is short for. -/
def handleForm (start : Nat) : Reading Form := do
  skipWhile isSpace
  let name ← tagHandle start true
  need 1
  if !isSpace (← next) then fail start "did not find expected whitespace"
  else
    skipWhile isSpace
    let tag ← tagSuffix start [] false
    need 1
    if isGap (← next) then return .handle name tag
    else fail start "did not find expected whitespace or line break"

/-- Takes a directive, the percent sign of which comes next. -/
def directiveForm : Reading Form := do
  let start := (← get).line
  skip
  let name ← takeWhile isWord
  if name = [] then fail start "could not find expected directive name"
  else if !isGap (← next) then fail start "found unexpected non-alphabetical character"
  else
    let form ←
      if name = "YAML" then versionForm start
      else if name = "TAG" then handleForm start
      else fail start "found unknown directive name"
    restOfLine start "did not find expected comment or line break"
    return form

end HackToolchain.Yaml.Token
