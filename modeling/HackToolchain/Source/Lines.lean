import HackToolchain.Text

/-!
A source as numbered lines. A line ends at a line feed or at the end of the source, loses one
carriage return at its end, and has to be shorter than `Lines.limit`; the first line that is not
ends the sequence.
-/

namespace HackToolchain

/-- The lines of a source up to the first one that is too long, if there is such a line. -/
structure Lines where
  contents : List Text
  overflows : Bool
deriving DecidableEq, Repr

namespace Lines

/-- A raw line of this many bytes is too long. -/
def limit : Nat := 65536

def overflowMessage : Text := "bufio.Scanner: token too long"

/-- A line without a carriage return at its end. -/
def dropReturn (line : Text) : Text := if line.getLast? = some 13 then line.dropLast else line

/-- The lines of a source as they are, however long. What follows the last line feed is a line unless
it is empty. -/
def raw (source : Text) : List Text :=
  let parts := Text.split Text.newline source
  if parts.getLast? = some [] then parts.dropLast else parts

def ofText (source : Text) : Lines :=
  let lines := raw source
  { contents := (lines.takeWhile fun line => line.length < limit).map dropReturn
    overflows := lines.any fun line => limit ≤ line.length }

/-- The lines paired with their numbers from 1 on. -/
def numbered (lines : Lines) : List (Text × Nat) := lines.contents.zipIdx 1

end Lines

/-- The part of a line in front of its comment, which two slashes start. -/
def Text.beforeComment : Text → Text
  | 47 :: 47 :: _ => []
  | b :: rest => b :: beforeComment rest
  | [] => []

end HackToolchain
