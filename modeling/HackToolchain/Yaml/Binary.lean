import HackToolchain.Text

/-!
Bytes written with 64 characters, each of which stands for six bits; equals signs fill up the last group
of four. Line ends have no meaning.
-/

namespace HackToolchain.Yaml.Binary

def bits? (b : UInt8) : Option Nat :=
  if 65 ≤ b ∧ b ≤ 90 then some (b.toNat - 65)
  else if 97 ≤ b ∧ b ≤ 122 then some (b.toNat - 71)
  else if Text.isDigit b then some (b.toNat + 4)
  else if b = 43 then some 62
  else if b = 47 then some 63
  else none

/-- The first bytes of a group of 24 bits. -/
def bytes (count group : Nat) : Text :=
  [group / 0x10000, group / 0x100, group].take count |>.map fun n => UInt8.ofNat (n % 0x100)

def groups? : Text → Option Text
  | [] => some []
  | [a, b, 61, 61] => do
    let (a, b) := (← bits? a, ← bits? b)
    return bytes 1 (0x1000 * (64 * a + b))
  | [a, b, c, 61] => do
    let (a, b, c) := (← bits? a, ← bits? b, ← bits? c)
    return bytes 2 (0x40 * (64 * (64 * a + b) + c))
  | a :: b :: c :: d :: rest => do
    let (a, b, c, d) := (← bits? a, ← bits? b, ← bits? c, ← bits? d)
    return bytes 3 (64 * (64 * (64 * a + b) + c) + d) ++ (← groups? rest)
  | _ => none

def decode? (t : Text) : Option Text := groups? (t.filter fun b => b != 10 && b != 13)

end HackToolchain.Yaml.Binary
