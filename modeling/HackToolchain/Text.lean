/-!
Text as the bytes it is written in. Sources, names and paths may hold any bytes, so nothing here
assumes that they decode. A literal stands for its UTF-8 encoding, and numbers are written in decimal.
-/

namespace HackToolchain

abbrev Text := List UInt8

namespace Text

/-- The UTF-8 encoding of a string. -/
def ofString (s : String) : Text := s.toByteArray.data.toList

instance : Coe String Text := ⟨ofString⟩

def newline : UInt8 := 10

/-- Texts one after the other with a separator between neighbours. -/
def join (separator : Text) (parts : List Text) : Text := List.flatten (parts.intersperse separator)

/-- Every text followed by a line end. -/
def unlines (parts : List Text) : Text := parts.flatMap (· ++ [newline])

/-- The part before the first occurrence of a byte and, when there is one, the part after it. -/
def cut (separator : UInt8) (t : Text) : Text × Option Text :=
  match t.span (· != separator) with
  | (before, []) => (before, none)
  | (before, _ :: after) => (before, some after)

/-- The parts between the occurrences of a byte. -/
def split (separator : UInt8) (t : Text) : List Text :=
  t.foldr (fun b parts => if b = separator then [] :: parts else parts.modifyHead (b :: ·)) [[]]

/-- A text without a given ending, unchanged when it has another one. -/
def dropEnding (ending t : Text) : Text :=
  if ending.isSuffixOf t then t.take (t.length - ending.length) else t

/-- Letters `A` to `Z` for `a` to `z`, every other byte as it is. -/
def upper (t : Text) : Text := t.map fun b => if 97 ≤ b ∧ b ≤ 122 then b - 32 else b

/-! ### Decimal numerals -/

def digit (n : Nat) : UInt8 := UInt8.ofNat (48 + n)

/-- The decimal digits of a natural number, the last `fuel` of them if there are more. -/
def digits : (fuel : Nat) → Nat → Text
  | 0, _ => []
  | fuel + 1, n => if n < 10 then [digit n] else digits fuel (n / 10) ++ [digit (n % 10)]

/-- The decimal numeral of a natural number, without leading zeros. -/
def ofNat (n : Nat) : Text := digits (n + 1) n

/-- The decimal numeral of an integer, with a sign only in front of a negative one. -/
def ofInt : Int → Text
  | .ofNat n => ofNat n
  | .negSucc n => 45 :: ofNat (n + 1)

def isDigit (b : UInt8) : Bool := 48 ≤ b && b ≤ 57

def value (digits : Text) : Nat := digits.foldl (fun n b => 10 * n + (b - 48).toNat) 0

/-- Reads a non-empty run of ASCII digits. -/
def toNat? (t : Text) : Option Nat :=
  if t.isEmpty || !t.all isDigit then none else some (value t)

def leastWord : Int := -0x8000000000000000

def fitsWord (n : Int) : Bool := leastWord ≤ n && n < 0x8000000000000000

/-- Reads a decimal integer: one optional sign, then digits only, the value within 64 signed bits. -/
def toInt? (t : Text) : Option Int :=
  let magnitude : Option Int :=
    match t with
    | 43 :: digits => (toNat? digits).map Int.ofNat
    | 45 :: digits => (toNat? digits).map fun n => -Int.ofNat n
    | digits => (toNat? digits).map Int.ofNat
  magnitude.filter fitsWord

/-- The hexadecimal digit of a number below 16, in lower case. -/
def hexDigit (n : Nat) : UInt8 := if n < 10 then UInt8.ofNat (48 + n) else UInt8.ofNat (87 + n)

/-- The last `width` hexadecimal digits of a number. -/
def hex : (width : Nat) → Nat → Text
  | 0, _ => []
  | width + 1, n => hex width (n / 16) ++ [hexDigit (n % 16)]

end Text

end HackToolchain
