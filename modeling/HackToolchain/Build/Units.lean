import HackToolchain.Build.Emitter
import HackToolchain.Build.Input
import HackToolchain.Command.Reader

/-!
Units fed to an emitter, one after the other, up to the first fault.
-/

namespace HackToolchain.Build

/-- The number of commands written from a unit. -/
structure Tally where
  unit : Text
  commands : Nat
deriving DecidableEq, Repr

/-- What can be read of a source once it is opened: a text, and what breaks the reading off behind it. -/
structure Reading where
  text : Text
  fault : Option FileError := none
deriving DecidableEq, Repr

/-- Why units were not written to their end. -/
inductive UnitError (ε : Type)
  | bootstrap (cause : ε)
  | unopened (unit : Text) (cause : FileError)
  | interrupted (unit : Text) (cause : FileError)
  | unreadable (cause : ReadError)
  | refused (unit : Text) (line : Nat) (command : Command) (cause : ε)
deriving DecidableEq, Repr

/-- The wording of an error, given that of the emitter's errors. -/
def UnitError.message {ε : Type} (wording : ε → Text) : UnitError ε → Text
  | .bootstrap cause => "failed to write bootstrap: " ++ wording cause
  | .unopened unit cause => "failed to open unit " ++ unit ++ ": " ++ cause.message
  | .interrupted unit cause => "failed to read " ++ unit ++ ": " ++ cause.message
  | .unreadable cause => cause.message
  | .refused unit line command cause =>
    unit ++ ":" ++ Text.ofNat line ++ ": " ++ command.render ++ ": " ++ wording cause

variable {σ ε : Type}

/-- Writes the commands of a unit; `done` of them are written already. -/
def writeItems (e : Emitter σ ε) (unit : Text) :
    List (Reader.Item × Nat) → (done : Nat) → σ → Nat × Option (UnitError ε) × σ
  | (.command c, line) :: rest, done, s =>
    match e.write c s with
    | .ok _ s => writeItems e unit rest (done + 1) s
    | .error cause s => (done, some (.refused unit line c cause), s)
  | (.failure cause, _) :: _, done, s => (done, some (.unreadable cause), s)
  | (.finished, _) :: _, done, s | [], done, s => (done, none, s)

/-- Writes the commands of a unit, as far as its source can be read. -/
def writeSource (e : Emitter σ ε) (unit : Text) (reading : Reading) (s : σ) : Nat × Option (UnitError ε) × σ :=
  match writeItems e unit (Reader.start unit reading.text).items 0 (e.setUnit unit s) with
  | (n, none, s) => (n, reading.fault.map (.interrupted unit), s)
  | stopped => stopped

def unitRecord (tally : Tally) : Log.Record :=
  { level := .debug
    message := "Unit translated"
    fields := [("Unit", .text tally.unit), ("Commands", .number tally.commands)] }

/-- Writes units. How a source is read may depend on what was written before it; it is read once its unit is
announced. -/
def writeEach (e : Emitter σ ε) (read : σ → Source → Except FileError Reading) :
    List SourceUnit → σ → List Tally × Option (UnitError ε) × σ
  | [], s => ([], none, s)
  | unit :: rest, s =>
    match read (e.setUnit unit.name s) unit.source with
    | .error cause => ([⟨unit.name, 0⟩], some (.unopened unit.name cause), s)
    | .ok reading =>
      match writeSource e unit.name reading s with
      | (n, some error, s) => ([⟨unit.name, n⟩], some error, s)
      | (n, none, s) =>
        let tally : Tally := ⟨unit.name, n⟩
        let (tallies, error, s) := writeEach e read rest (e.note (unitRecord tally) s)
        (tally :: tallies, error, s)

/-- Writes the bootstrap, if it is wanted, and then the units. -/
def writeUnits (e : Emitter σ ε) (read : σ → Source → Except FileError Reading) (bootstrap : Bool)
    (units : List SourceUnit) (s : σ) : List Tally × Option (UnitError ε) × σ :=
  if bootstrap then
    match e.bootstrap s with
    | .error cause s => ([], some (.bootstrap cause), s)
    | .ok _ s => writeEach e read units s
  else writeEach e read units s

/-- Opens a source and reads it. A directory can be opened but not read. -/
def Source.read (tree : Tree) : Source → Except FileError Reading
  | .text t => .ok { text := t }
  | .file path =>
    match tree.read path with
    | .ok contents => .ok { text := contents }
    | .error cause => if cause.action = .reading then .ok { text := [], fault := some cause } else .error cause

end HackToolchain.Build
