import HackToolchain.Text

/-!
Characters in a text. A text need not be well-formed UTF-8: reading it yields a character where a
shortest-form encoding of a scalar value starts, and otherwise the single byte that starts none.
-/

namespace HackToolchain.Text

/-- The payload of a continuation byte. -/
def continuation? (b : UInt8) : Option Nat :=
  if 0x80 ≤ b ∧ b ≤ 0xBF then some (b.toNat - 0x80) else none

/-- The character encoded at the front, with the number of bytes after its first. -/
def decode? : Text → Option (Char × Nat)
  | [] => none
  | b :: rest =>
    if b < 0x80 then some (Char.ofNat b.toNat, 0)
    else if 0xC2 ≤ b ∧ b ≤ 0xDF then do
      let x ← rest[0]? >>= continuation?
      some (Char.ofNat ((b.toNat - 0xC0) * 64 + x), 1)
    else if 0xE0 ≤ b ∧ b ≤ 0xEF then do
      let x ← rest[0]? >>= continuation?
      let y ← rest[1]? >>= continuation?
      let scalar := ((b.toNat - 0xE0) * 64 + x) * 64 + y
      if 0x800 ≤ scalar ∧ ¬ (0xD800 ≤ scalar ∧ scalar ≤ 0xDFFF) then some (Char.ofNat scalar, 2) else none
    else if 0xF0 ≤ b ∧ b ≤ 0xF4 then do
      let x ← rest[0]? >>= continuation?
      let y ← rest[1]? >>= continuation?
      let z ← rest[2]? >>= continuation?
      let scalar := (((b.toNat - 0xF0) * 64 + x) * 64 + y) * 64 + z
      if 0x10000 ≤ scalar ∧ scalar ≤ 0x10FFFF then some (Char.ofNat scalar, 3) else none
    else none

/-- One unit of a text: a character, or a byte that is part of none. -/
inductive Glyph
  | char (c : Char)
  | stray (b : UInt8)
deriving DecidableEq, Repr

/-- The characters and stray bytes of a text behind the first `skip` bytes. -/
def glyphsFrom : (skip : Nat) → Text → List Glyph
  | _, [] => []
  | skip + 1, _ :: rest => glyphsFrom skip rest
  | 0, b :: rest =>
    match decode? (b :: rest) with
    | some (c, more) => .char c :: glyphsFrom more rest
    | none => .stray b :: glyphsFrom 0 rest

/-- The characters and stray bytes of a text, in order. -/
def glyphs (t : Text) : List Glyph := glyphsFrom 0 t

/-- The characters of a text, the replacement character for each stray byte. -/
def chars (t : Text) : List Char := t.glyphs.map fun | .char c => c | .stray _ => Char.ofNat 0xFFFD

def ofChar (c : Char) : Text := String.utf8EncodeChar c

end HackToolchain.Text
