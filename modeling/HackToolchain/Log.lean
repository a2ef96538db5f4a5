import HackToolchain.Text.Blank
import HackToolchain.Text.Quoted

/-!
Log records and the two forms in which they are written, one record a line: keys with values, or an
object. In a file a record also holds the time at which it was made. Times differ from run to run, so
that they are not part of a record here, but the bytes they take count where a log and an output share
a file.
-/

namespace HackToolchain.Log

/-- How important a record is. -/
inductive Level
  | trace
  | debug
  | info
  | warn
  | error
deriving DecidableEq, Repr

namespace Level

def severity : Level → Int
  | .trace => -8
  | .debug => -4
  | .info => 0
  | .warn => 4
  | .error => 8

/-- The name of a level in a log. Trace has none of its own. -/
def name : Level → Text
  | .trace => "DEBUG-4"
  | .debug => "DEBUG"
  | .info => "INFO"
  | .warn => "WARN"
  | .error => "ERROR"

end Level

/-- A value in a record. -/
inductive Value
  | text (t : Text)
  | number (n : Int)
  | flag (b : Bool)
deriving DecidableEq, Repr

instance : Coe Text Value := ⟨.text⟩
instance : Coe Int Value := ⟨.number⟩

/-- One entry of a log. -/
structure Record where
  level : Level
  message : Text
  fields : List (Text × Value)
deriving DecidableEq, Repr

/-- The form of a log. -/
inductive Format
  | text
  | json
deriving DecidableEq, Repr

/-! ### Keys with values -/

/-- Whether one unit makes quotes necessary: white space, an equals sign, a quote, and what cannot be
printed. A delete character does not. -/
def needsQuotes : Text.Glyph → Bool
  | .stray _ => true
  | .char c =>
    if c.toNat < 0x80 then c.toNat ≤ 0x20 || c == '=' || c == '"'
    else c.toNat == 0xFFFD || Text.isBlank c || !Text.isPrintable c

/-- A text, in quotes where it is empty or could be misread. -/
def plain (t : Text) : Text := if t.isEmpty || t.glyphs.any needsQuotes then t.quote else t

def Value.plain : Value → Text
  | .text t => Log.plain t
  | .number n => Text.ofInt n
  | .flag b => if b then "true" else "false"

def Record.plain (r : Record) : Text :=
  let field : Text × Value → Text := fun (key, value) => " " ++ key ++ "=" ++ value.plain
  "level=" ++ r.level.name ++ " msg=" ++ Log.plain r.message ++ r.fields.flatMap field ++ [Text.newline]

/-! ### Objects -/

/-- One unit in a string of an object. -/
def escapeInObject : Text.Glyph → Text
  | .stray _ => "\\ufffd"
  | .char c =>
    if c = '"' ∨ c = '\\' then 92 :: Text.ofChar c
    else if c = '\n' then "\\n"
    else if c = '\r' then "\\r"
    else if c = '\t' then "\\t"
    else if c.toNat < 0x20 ∨ c.toNat = 0x2028 ∨ c.toNat = 0x2029 then "\\u" ++ Text.hex 4 c.toNat
    else Text.ofChar c

def string (t : Text) : Text := 34 :: t.glyphs.flatMap escapeInObject ++ [34]

def Value.json : Value → Text
  | .text t => string t
  | .number n => Text.ofInt n
  | .flag b => if b then "true" else "false"

def Record.json (r : Record) : Text :=
  let members : List (Text × Value) := ("level", .text r.level.name) :: ("msg", .text r.message) :: r.fields
  let member : Text × Value → Text := fun (key, value) => string key ++ ":" ++ value.json
  "\x7b" ++ Text.join "," (members.map member) ++ "\x7d" ++ [Text.newline]

/-! ### Logs -/

def Record.render (format : Format) (r : Record) : Text :=
  match format with
  | .text => r.plain
  | .json => r.json

/-- Whether a record is of at least a level. -/
def Record.reaches (least : Level) (r : Record) : Bool := least.severity ≤ r.level.severity

/-- The records of at least a level, written one after the other. -/
def render (format : Format) (least : Level) (records : List Record) : Text :=
  (records.filter (·.reaches least)).flatMap (·.render format)

/-! ### Files that also hold an output -/

/-- A record of a program that writes an output, with the size of what was delivered of it before. -/
structure Entry where
  record : Record
  delivered : Nat
deriving DecidableEq, Repr

/-- The bytes of a record in a file. Those of its time are not known. -/
def Record.stamped (format : Format) (r : Record) : List (Option UInt8) :=
  let bytes := (r.render format).map some
  match format with
  | .text => List.replicate 30 none ++ bytes
  | .json => bytes.take 1 ++ List.replicate 40 none ++ bytes.drop 1

/-- The bytes of entries in a file, each with what was delivered before it. -/
def trail (format : Format) (least : Level) (entries : List Entry) : List (Option UInt8 × Nat) :=
  (entries.filter (·.record.reaches least)).flatMap fun e => (e.record.stamped format).map (·, e.delivered)

/-- The known bytes of a file in which an output and a log are both written from its start. Where the
output had passed before the log came the log stands, elsewhere the output. -/
def contents (format : Format) (least : Level) (output : Text) (entries : List Entry) : Text :=
  let log := trail format least entries
  let both := (output.zip log).zipIdx.map fun ((o, b, delivered), place) =>
    if place < delivered then b else some o
  (both ++ (output.drop log.length).map some ++ (log.drop output.length).map (·.1)).filterMap id

end HackToolchain.Log
