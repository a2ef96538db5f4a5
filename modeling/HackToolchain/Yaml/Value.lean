import HackToolchain.Yaml.Binary
import HackToolchain.Yaml.Real
import HackToolchain.Yaml.Time

/-!
What a scalar means. That of one without quotes and tag is told by its form, about which its first
character decides; whatever has none of the forms is a text. A tag asks for a form.
-/

namespace HackToolchain.Yaml

/-- The meaning of a scalar. -/
inductive Value
  | null
  | flag (b : Bool)
  | integer (n : Int)
  | real (x : Real)
  | time
  | merge
  | text (t : Text)
deriving DecidableEq, Repr

namespace Value

def tag : Value → Text
  | .null => "!!null"
  | .flag _ => "!!bool"
  | .integer _ => "!!int"
  | .real _ => "!!float"
  | .time => "!!timestamp"
  | .merge => "!!merge"
  | .text _ => "!!str"

/-! ### Words -/

def ofWord? (t : Text) : Option Value :=
  let among (words : List String) : Bool := words.any fun word => Text.ofString word == t
  if among ["true", "True", "TRUE"] then some (.flag true)
  else if among ["false", "False", "FALSE"] then some (.flag false)
  else if among ["", "~", "null", "Null", "NULL"] then some .null
  else if among [".nan", ".NaN", ".NAN"] then some (.real .undefined)
  else if among [".inf", ".Inf", ".INF", "+.inf", "+.Inf", "+.INF"] then some (.real (.infinite false))
  else if among ["-.inf", "-.Inf", "-.INF"] then some (.real (.infinite true))
  else if among ["<<"] then some .merge
  else none

/-! ### Integers -/

/-- The value of a digit, up to the letter `f` in either case. -/
def digit? (b : UInt8) : Option Nat :=
  if Text.isDigit b then some (b.toNat - 48)
  else if 97 ≤ b ∧ b ≤ 102 then some (b.toNat - 87)
  else if 65 ≤ b ∧ b ≤ 70 then some (b.toNat - 55)
  else none

def digits? (base : Nat) (t : Text) : Option Nat :=
  t.foldlM (fun n b => ((digit? b).filter (· < base)).map (base * n + ·)) 0

/-- Reads a number whose base is told by its start: `0x`, `0o`, `0b` or a leading zero for octal. -/
def magnitude? : Text → Option Nat
  | [] => none
  | 48 :: letter :: first :: rest =>
    if letter = 120 ∨ letter = 88 then digits? 16 (first :: rest)
    else if letter = 111 ∨ letter = 79 then digits? 8 (first :: rest)
    else if letter = 98 ∨ letter = 66 then digits? 2 (first :: rest)
    else digits? 8 (letter :: first :: rest)
  | 48 :: rest => digits? 8 rest
  | t => digits? 10 t

/-- Reads an optional sign and then a magnitude, within 64 signed bits. -/
def signed? (read : Text → Option Nat) (t : Text) : Option Int :=
  let n : Option Int := match t with
    | 43 :: rest => (read rest).map Int.ofNat
    | 45 :: rest => (read rest).map fun n => -Int.ofNat n
    | _ => (read t).map Int.ofNat
  n.filter Text.fitsWord

/-- Reads an integer within 64 bits, signed or, without a sign, unsigned. -/
def integer? (t : Text) : Option Int :=
  signed? magnitude? t <|> ((magnitude? t).filter (· < 0x10000000000000000)).map Int.ofNat

def run? (base : Nat) (t : Text) : Option Nat := if t = [] then none else digits? base t

/-- Reads binary or octal digits with a sign between them and their mark. -/
def markedInteger? : Text → Option Int
  | 48 :: 98 :: rest => signed? (run? 2) rest
  | 48 :: 111 :: rest => signed? (run? 8) rest
  | _ => none

/-! ### Decimals -/

/-- Reads the exponent of a decimal, zero if there is none. -/
def exponent? : Text → Option Int
  | [] => some 0
  | e :: rest =>
    if e = 101 ∨ e = 69 then
      match rest with
      | 43 :: digits => (Text.toNat? digits).map Int.ofNat
      | 45 :: digits => (Text.toNat? digits).map fun n => -Int.ofNat n
      | digits => (Text.toNat? digits).map Int.ofNat
    else none

/-- Reads a decimal without a sign: digits on at least one side of a point, those in front of it if there
is none, and an exponent. Digits in front are required for a point without digits after it. -/
def decimal? (negative : Bool) (t : Text) : Option Real :=
  let (whole, rest) := t.span Text.isDigit
  let (fraction, rest) := match rest with
    | 46 :: more => more.span Text.isDigit
    | _ => ([], rest)
  if whole = [] ∧ fraction = [] then none
  else do
    let exponent ← exponent? rest
    Real.ofDecimal? negative (Text.value (whole ++ fraction)) (exponent - fraction.length)

def signedDecimal? : Text → Option Real
  | 43 :: rest => decimal? false rest
  | 45 :: rest => decimal? true rest
  | t => decimal? false t

/-- Whether each underscore has a digit on either side. -/
def separatesDigits : (afterDigit : Bool) → Text → Bool
  | _, [] => true
  | afterDigit, b :: rest =>
    if b = 95 then afterDigit && rest.head?.any Text.isDigit && separatesDigits false rest
    else separatesDigits (Text.isDigit b) rest

/-- Reads a decimal that starts with a point; underscores may separate its digits. -/
def pointedDecimal? (t : Text) : Option Real :=
  if separatesDigits false t then decimal? false (t.filter (· ≠ 95)) else none

/-! ### Scalars -/

/-- The meaning of a number; underscores in it have none. -/
def ofNumber? (t : Text) : Option Value :=
  let bare := t.filter (· ≠ 95)
  (integer? bare).map .integer <|> (signedDecimal? bare).map .real <|> (markedInteger? bare).map .integer

/-- The meaning of a scalar without quotes, which is a point in time only where that is asked for. -/
def ofForm (times : Bool) (t : Text) : Value :=
  let found :=
    match ofWord? t, t with
    | some v, _ => some v
    | none, b :: _ =>
      if Text.isDigit b || b == 43 || b == 45 then
        if times && Time.isTime t then some .time else ofNumber? t
      else if b == 46 then (pointedDecimal? t).map .real
      else none
    | none, [] => none
  found.getD (.text t)

/-- The meaning of a scalar without quotes and tag. -/
def ofPlain (t : Text) : Value := ofForm true t

/-- An integer as a decimal, where it is within 64 signed bits. -/
def toReal? : Value → Option Real
  | .integer n => if Text.fitsWord n then Real.ofDecimal? (n < 0) n.natAbs 0 else none
  | _ => none

/-- The meaning of a scalar with a tag, or what is wrong with it. An integer also counts as a decimal. -/
def ofTagged (tag t : Text) : Except Text Value :=
  if tag = "!!str" then .ok (.text t)
  else if tag = "!!binary" then
    match Binary.decode? t with
    | some data => .ok (.text data)
    | none => .error "!!binary value contains invalid base64 data"
  else
    let value := ofForm (tag = "!!timestamp") t
    if value.tag = tag then .ok value
    else
      match value.toReal?.filter fun _ => tag = "!!float" with
      | some x => .ok (.real x)
      | none => .error ("cannot decode " ++ value.tag ++ " `" ++ t ++ "` as a " ++ tag)

end Value

end HackToolchain.Yaml
