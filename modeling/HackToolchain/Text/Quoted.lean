import HackToolchain.Text.Printable

/-!
Quoted text: between double quotes, with a backslash in front of quotes and backslashes, a letter
escape for the usual control characters, and a hexadecimal escape for whatever cannot be printed.
-/

namespace HackToolchain.Text

/-- The letter that stands for a control character after a backslash. -/
def escapeLetter? (c : Char) : Option UInt8 :=
  match c.toNat with
  | 7 => some 97
  | 8 => some 98
  | 9 => some 116
  | 10 => some 110
  | 11 => some 118
  | 12 => some 102
  | 13 => some 114
  | _ => none

/-- The form of one unit between quotes of a kind. -/
def escape (mark : Char) : Glyph → Text
  | .stray b => "\\x" ++ hex 2 b.toNat
  | .char c =>
    if c = mark ∨ c = '\\' then 92 :: ofChar c
    else if isPrintable c then ofChar c
    else match escapeLetter? c with
      | some letter => [92, letter]
      | none =>
        if c.toNat < 0x80 then "\\x" ++ hex 2 c.toNat
        else if c.toNat < 0x10000 then "\\u" ++ hex 4 c.toNat
        else "\\U" ++ hex 8 c.toNat

def quote (t : Text) : Text := 34 :: t.glyphs.flatMap (escape '"') ++ [34]

def quoteChar (c : Char) : Text := 39 :: escape '\'' (.char c) ++ [39]

end HackToolchain.Text
