import HackToolchain.Command
import HackToolchain.Source.Lines
import HackToolchain.Text.Quoted

/-!
Reading commands from a source, one line at a time. Each line that has a token in front of its
comment yields one result, a command or an error; lines without a token are counted and passed over.
-/

namespace HackToolchain

/-- A line that holds no command. -/
structure ParseError where
  unit : Text
  line : Nat
  text : Text
  cause : Command.Malformed
deriving DecidableEq, Repr

/-- The wording of a parse error: where, what was read, and why it is no command. -/
def ParseError.message (e : ParseError) : Text :=
  e.unit ++ ":" ++ Text.ofNat e.line ++ ": " ++ e.text.quote ++ ": " ++ e.cause.message

/-- Why a source cannot be read on. -/
inductive ReadError
  | malformed (e : ParseError)
  | tooLong (unit : Text)
deriving DecidableEq, Repr

def ReadError.message : ReadError → Text
  | .malformed e => e.message
  | .tooLong unit => "failed to read " ++ unit ++ ": " ++ Lines.overflowMessage

/-- A source being read: the lines that are left, and the line of the last result. -/
structure Reader where
  unit : Text
  line : Nat
  pending : List (Text × Nat)
  overflows : Bool
deriving DecidableEq, Repr

namespace Reader

/-- A reader in front of the first line of a source. -/
def start (unit source : Text) : Reader :=
  let lines := Lines.ofText source
  { unit, line := 0, pending := lines.numbered, overflows := lines.overflows }

/-- What one reading step finds. -/
inductive Item
  | command (c : Command)
  | failure (e : ReadError)
  | finished
deriving DecidableEq, Repr

/-- The result of a line, or nothing for a line without a token. -/
def item? (unit content : Text) (line : Nat) : Option Item :=
  let code := content.beforeComment
  match code.fields with
  | [] => none
  | word :: operands =>
    some <| match Command.ofTokens word operands with
      | .ok c => .command c
      | .error cause => .failure (.malformed { unit, line, text := code.trim, cause })

def next (r : Reader) : Item × Reader :=
  go r.pending
where
  /-- Passes over the lines without a token. -/
  go : List (Text × Nat) → Item × Reader
    | [] =>
      let final := if r.overflows then .failure (.tooLong r.unit) else .finished
      (final, { r with pending := [] })
    | (content, line) :: rest =>
      match item? r.unit content line with
      | none => go rest
      | some found => (found, { r with line, pending := rest })

/-- All results up to and including the one that ends the source. -/
def items (r : Reader) : List (Item × Nat) :=
  let found := r.pending.filterMap fun (content, line) => (item? r.unit content line).map (·, line)
  let last := (found.getLast?.map (·.2)).getD r.line
  found ++ [(if r.overflows then .failure (.tooLong r.unit) else .finished, last)]

/-- The commands up to the end or the first error, and that error. -/
def readAll (r : Reader) : List Command × Option ReadError :=
  go r.items
where
  /-- Collects commands until something else is found. -/
  go : List (Item × Nat) → List Command × Option ReadError
    | (.command c, _) :: rest => let (cs, e) := go rest; (c :: cs, e)
    | (.failure e, _) :: _ => ([], some e)
    | (.finished, _) :: _ | [] => ([], none)

end Reader

end HackToolchain
