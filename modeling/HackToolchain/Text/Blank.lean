import HackToolchain.Text.Utf8

/-!
White space: the characters with the Unicode property of that name. Stray bytes are never white
space, and no white-space character starts inside another character, so cutting at white space
needs no alignment.
-/

namespace HackToolchain.Text

/-- The `White_Space` property. -/
def isBlank (c : Char) : Bool :=
  let n := c.toNat
  (9 ≤ n && n ≤ 13) || n == 0x20 || n == 0x85 || n == 0xA0 || n == 0x1680 || (0x2000 ≤ n && n ≤ 0x200A) ||
    n == 0x2028 || n == 0x2029 || n == 0x202F || n == 0x205F || n == 0x3000

/-- The number of bytes of the white-space character at the front, 0 if another unit stands there. -/
def blankWidth (t : Text) : Nat :=
  match decode? t with
  | some (c, more) => if isBlank c then more + 1 else 0
  | none => 0

/-- The texts between white-space characters behind the first `skip` bytes. -/
def piecesFrom : (skip : Nat) → Text → List Text
  | _, [] => [[]]
  | skip + 1, _ :: rest => piecesFrom skip rest
  | 0, b :: rest =>
    match blankWidth (b :: rest) with
    | 0 => (piecesFrom 0 rest).modifyHead (b :: ·)
    | more + 1 => [] :: piecesFrom more rest

/-- The texts between white-space characters, empty ones included. -/
def pieces (t : Text) : List Text := piecesFrom 0 t

/-- The tokens of a text: its maximal non-empty runs without white space. -/
def fields (t : Text) : List Text := (pieces t).filter fun token => !token.isEmpty

/-- What is left of a text behind its first `skip` bytes and the white space after them. -/
def trimStartFrom : (skip : Nat) → Text → Text
  | _, [] => []
  | skip + 1, _ :: rest => trimStartFrom skip rest
  | 0, b :: rest =>
    match blankWidth (b :: rest) with
    | 0 => b :: rest
    | more + 1 => trimStartFrom more rest

def trimStart (t : Text) : Text := trimStartFrom 0 t

/-- Puts a byte in front of a text, unless that is empty. -/
def attach (b : UInt8) : Text → Text
  | [] => []
  | kept => b :: kept

/-- A text without white space at its end, given that its first `skip` bytes are white space. -/
def trimEndFrom : (skip : Nat) → Text → Text
  | _, [] => []
  | skip + 1, b :: rest => attach b (trimEndFrom skip rest)
  | 0, b :: rest =>
    match blankWidth (b :: rest) with
    | 0 => b :: trimEndFrom 0 rest
    | more + 1 => attach b (trimEndFrom more rest)

def trimEnd (t : Text) : Text := trimEndFrom 0 t

def trim (t : Text) : Text := trimEnd (trimStart t)

end HackToolchain.Text
