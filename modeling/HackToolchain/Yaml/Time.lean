import HackToolchain.Text

/-!
The texts that are points in time: a date, or a date and a time of day. The date may be followed by the
letter `T` in either case, and then the time by a zone, or by blanks, and then there is none. Apart from
the year, numbers have one or two digits.
-/

namespace HackToolchain.Yaml.Time

def number? : Text → Option (Nat × Text)
  | a :: b :: rest =>
    if !Text.isDigit a then none
    else if Text.isDigit b then some (Text.value [a, b], rest)
    else some (Text.value [a], b :: rest)
  | [a] => if Text.isDigit a then some (Text.value [a], []) else none
  | [] => none

def expect (b : UInt8) : Text → Option Text
  | a :: rest => if a = b then some rest else none
  | [] => none

def isLeap (year : Nat) : Bool := year % 4 == 0 && (year % 100 != 0 || year % 400 == 0)

def daysOf (year month : Nat) : Nat :=
  if month = 2 then if isLeap year then 29 else 28
  else if month = 4 ∨ month = 6 ∨ month = 9 ∨ month = 11 then 30
  else 31

def date? (t : Text) : Option Text := do
  let (year, rest) := t.span Text.isDigit
  guard (year.length = 4)
  let (month, rest) ← expect 45 rest >>= number?
  let (day, rest) ← expect 45 rest >>= number?
  guard (1 ≤ month ∧ month ≤ 12 ∧ 1 ≤ day ∧ day ≤ daysOf (Text.value year) month)
  return rest

/-- Takes the fraction of a second behind a point or a comma, if there is one. -/
def fraction : Text → Text
  | point :: digit :: rest =>
    if (point = 46 ∨ point = 44) ∧ Text.isDigit digit then rest.dropWhile Text.isDigit else point :: digit :: rest
  | t => t

def clock? (t : Text) : Option Text := do
  let (hour, rest) ← number? t
  let (minute, rest) ← expect 58 rest >>= number?
  let (second, rest) ← expect 58 rest >>= number?
  guard (hour < 24 ∧ minute < 60 ∧ second < 60)
  return fraction rest

/-- Whether a text is a zone: the letter `Z`, or a distance in hours and minutes. -/
def isZone : Text → Bool
  | [90] => true
  | [sign, a, b, 58, c, d] =>
    (sign == 43 || sign == 45) && [a, b, c, d].all Text.isDigit && Text.value [a, b] ≤ 24 && Text.value [c, d] ≤ 60
  | _ => false

/-- Whether a text is a point in time. -/
def isTime (t : Text) : Bool :=
  match date? t with
  | none => false
  | some [] => true
  | some (b :: rest) =>
    if b = 84 ∨ b = 116 then (clock? rest).any isZone
    else if b = 32 then clock? (rest.dropWhile (· == 32)) == some []
    else false

end HackToolchain.Yaml.Time
