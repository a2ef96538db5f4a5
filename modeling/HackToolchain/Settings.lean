import HackToolchain.Emission.Session
import HackToolchain.Machine.Instruction

/-!
The settings of a run, their defaults, and which of them are valid.
-/

namespace HackToolchain

/-- Where a log goes and what it shows, as named in the settings. -/
structure LogSettings where
  level : Text
  format : Text
  file : Text
deriving DecidableEq, Repr

/-- The settings of a run. An empty output stands for the one derived from the input. -/
structure Settings where
  entryPoint : Text
  stackBase : Int
  bootstrap : Bool
  output : Text
  lint : Bool
  log : LogSettings
deriving DecidableEq, Repr

/-- A letter in lower case. Besides the ASCII letters, two characters have an ASCII letter as their lower
case: the capital I with a dot above and the Kelvin sign. -/
def Text.lowerGlyph : Text.Glyph → Text
  | .char c =>
    if 'A' ≤ c ∧ c ≤ 'Z' then [UInt8.ofNat (c.toNat + 32)]
    else if c.toNat = 0x130 then "i"
    else if c.toNat = 0x212A then "k"
    else Text.ofChar c
  | .stray b => [b]

/-- A text whose letters with an ASCII lower case are in lower case. -/
def Text.lower (t : Text) : Text := t.glyphs.flatMap Text.lowerGlyph

/-- The level with a name, in any case; the empty name stands for info. -/
def LogSettings.level? (s : LogSettings) : Option Log.Level :=
  let name := s.level.lower
  if name = "trace" then some .trace
  else if name = "debug" then some .debug
  else if name = "info" ∨ name = [] then some .info
  else if name = "warn" then some .warn
  else if name = "error" then some .error
  else none

def LogSettings.format? (s : LogSettings) : Option Log.Format :=
  if s.format = "text" then some .text else if s.format = "json" then some .json else none

namespace Settings

/-- The settings that hold where nothing else is said. -/
def default : Settings :=
  { entryPoint := Emission.Session.defaultEntryPoint
    stackBase := Emission.Session.defaultStackBase
    bootstrap := true
    output := []
    lint := false
    log := { level := "info", format := "text", file := [] } }

/-- Which setting is invalid. -/
inductive Invalid
  | emptyEntryPoint
  | stackBase (n : Int)
  | logLevel (name : Text)
  | logFormat (name : Text)
deriving DecidableEq, Repr

def Invalid.message : Invalid → Text
  | .emptyEntryPoint => "invalid configuration: empty entry point"
  | .stackBase n => "invalid configuration: stack base " ++ Text.ofInt n ++ " outside 1..32767"
  | .logLevel name => "invalid configuration: log level " ++ name.quote
  | .logFormat name => "invalid configuration: log format " ++ name.quote

def invalid? (s : Settings) : Option Invalid :=
  if s.entryPoint.trim = [] then some .emptyEntryPoint
  else if s.stackBase ≤ 0 ∨ Operation.maxLiteral < s.stackBase then some (.stackBase s.stackBase)
  else if s.log.level?.isNone then some (.logLevel s.log.level)
  else if s.log.format?.isNone then some (.logFormat s.log.format)
  else none

end Settings

end HackToolchain
