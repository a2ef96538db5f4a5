import HackToolchain.Text.Utf8

/-!
The characters of a configuration text, which is in UTF-8, or in UTF-16 behind a byte order mark. They
are decoded in batches, each time as many bytes as a block holds, and a batch with a fault in it gives
no character. A text that is not read so far is not found faulty.
-/

namespace HackToolchain.Yaml

/-- Whether a character may occur at all. -/
def isAllowed (c : Char) : Bool :=
  let n := c.toNat
  n == 9 || n == 10 || n == 13 || (0x20 ≤ n && n ≤ 0x7E) || n == 0x85 || (0xA0 ≤ n && n ≤ 0xD7FF) ||
    (0xE000 ≤ n && n ≤ 0xFFFD) || 0x10000 ≤ n

/-- How characters are written in bytes. -/
inductive Encoding
  | utf8
  | utf16 (bigEndian : Bool)
deriving DecidableEq, Repr

/-- What starts a text: a number of bytes that is the character with a code, too few bytes, or a fault. -/
inductive Encoding.Front
  | code (n width : Nat)
  | incomplete (problem : Text)
  | faulty (problem : Text)
deriving DecidableEq, Repr

namespace Encoding

/-- The number of bytes of a character that starts with a byte, and what the byte contributes. -/
def leading? (b : UInt8) : Option (Nat × Nat) :=
  if b < 0x80 then some (1, b.toNat)
  else if 0xC0 ≤ b ∧ b < 0xE0 then some (2, b.toNat - 0xC0)
  else if 0xE0 ≤ b ∧ b < 0xF0 then some (3, b.toNat - 0xE0)
  else if 0xF0 ≤ b ∧ b < 0xF8 then some (4, b.toNat - 0xF0)
  else none

/-- The least code that needs a number of bytes. -/
def leastCode : (width : Nat) → Nat
  | 2 => 0x80
  | 3 => 0x800
  | 4 => 0x10000
  | _ => 0

def front8 (b : UInt8) (rest : Text) : Front :=
  match leading? b with
  | none => .faulty "invalid leading UTF-8 octet"
  | some (width, start) =>
    if rest.length + 1 < width then .incomplete "incomplete UTF-8 octet sequence"
    else
      match (rest.take (width - 1)).foldlM (fun n b => (Text.continuation? b).map (64 * n + ·)) start with
      | none => .faulty "invalid trailing UTF-8 octet"
      | some n =>
        if n < leastCode width then .faulty "invalid length of a UTF-8 sequence"
        else if (0xD800 ≤ n ∧ n ≤ 0xDFFF) ∨ 0x10FFFF < n then .faulty "invalid Unicode character"
        else .code n width

def front16 (bigEndian : Bool) (t : Text) : Front :=
  let unit (a b : UInt8) : Nat := if bigEndian then 256 * a.toNat + b.toNat else 256 * b.toNat + a.toNat
  match t with
  | a :: b :: rest =>
    let high := unit a b
    if high / 0x400 = 0x37 then .faulty "unexpected low surrogate area"
    else if high / 0x400 = 0x36 then
      match rest with
      | c :: d :: _ =>
        let low := unit c d
        if low / 0x400 ≠ 0x37 then .faulty "expected low surrogate area"
        else .code (0x10000 + 0x400 * (high - 0xD800) + (low - 0xDC00)) 4
      | _ => .incomplete "incomplete UTF-16 surrogate pair"
    else .code high 2
  | _ => .incomplete "incomplete UTF-16 character"

def front (e : Encoding) (b : UInt8) (rest : Text) : Front :=
  match e with
  | .utf8 => front8 b rest
  | .utf16 bigEndian => front16 bigEndian (b :: rest)

/-- The encoding of a text, and the length of the byte order mark that tells it. -/
def detect : Text → Encoding × Nat
  | 0xFF :: 0xFE :: _ => (.utf16 false, 2)
  | 0xFE :: 0xFF :: _ => (.utf16 true, 2)
  | 0xEF :: 0xBB :: 0xBF :: _ => (.utf8, 3)
  | _ => (.utf8, 0)

/-- The characters in some bytes behind the first `skip`, and the bytes of one that is not complete. -/
def decodeFrom (e : Encoding) : (skip : Nat) → Text → Except Text (List Char × Text)
  | _, [] => .ok ([], [])
  | skip + 1, _ :: rest => decodeFrom e skip rest
  | 0, b :: rest =>
    match e.front b rest with
    | .faulty problem => .error problem
    | .incomplete _ => .ok ([], b :: rest)
    | .code n width =>
      if isAllowed (Char.ofNat n) then
        match decodeFrom e (width - 1) rest with
        | .ok (found, left) => .ok (Char.ofNat n :: found, left)
        | .error problem => .error problem
      else .error "control characters are not allowed"

end Encoding

/-- The characters of a text up to a fault, if it has one, and how many there are after each batch. -/
structure Stream where
  characters : Array Char := #[]
  batches : Array Nat := #[]
  fault : Option Text := none
deriving Repr

namespace Stream

/-- The bytes that are decoded together. -/
def blockSize : Nat := 512

def extend (s : Stream) (found : List Char) : Stream :=
  let characters := s.characters ++ found.toArray
  { s with characters, batches := s.batches.push characters.size }

/-- Decodes a text in batches. The first of them has room for some bytes, and the bytes of a character
that is not complete are held back for the next one. -/
def decode (e : Encoding) : (fuel : Nat) → (room : Nat) → (held rest : Text) → Stream → Stream
  | 0, _, _, _, s => s
  | fuel + 1, room, held, rest, s =>
    match e.decodeFrom 0 (held ++ rest.take room) with
    | .error problem => { s with fault := some problem }
    | .ok (found, left) =>
      let s := s.extend found
      match rest.drop room, left with
      | [], [] => s
      | [], b :: left =>
        match e.front b left with
        | .incomplete problem => { s with fault := some problem }
        | _ => s
      | later, left => decode e fuel (blockSize - left.length) left later s

def ofText (t : Text) : Stream :=
  let (encoding, mark) := Encoding.detect t
  decode encoding (t.length + 1) (blockSize - mark) [] (t.drop mark) {}

/-- How many characters there are once so many are wanted. -/
def reach? (s : Stream) (wanted : Nat) : Option Nat := s.batches.find? (wanted ≤ ·)

end Stream

end HackToolchain.Yaml
