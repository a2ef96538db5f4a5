import HackToolchain.File.Tree
import HackToolchain.Lint
import HackToolchain.Table

/-!
The report on the issues of one output file.
-/

namespace HackToolchain.Lint

/-- A line of a report. -/
structure Notice where
  kind : Text
  symbol : Text
  line : Int
  message : Text
deriving DecidableEq, Repr

def Notice.ofIssue (i : Issue) : Notice := { kind := i.kind, symbol := i.symbol, line := i.line, message := i.message }

/-- What was found in an output file. -/
structure Report where
  output : Text
  notices : List Notice
deriving DecidableEq, Repr

namespace Report

def isClean (r : Report) : Bool := r.notices.isEmpty

def duplicateCount (r : Report) : Nat := r.notices.countP fun n => n.kind == Issue.duplicateKind

/-- The number of all other notices, which count as undefined targets. -/
def undefinedCount (r : Report) : Nat := r.notices.length - r.duplicateCount

def table (r : Report) : Table :=
  { title := none
    header := ["Line", "Type", "Symbol", "Message"]
    numeric := [true, false, false, false]
    rows := r.notices.map fun n => [Text.ofInt n.line, n.kind, n.symbol, n.message]
    footer := some ["", "Total", Text.ofNat r.notices.length,
      Text.ofNat r.duplicateCount ++ " " ++ Issue.duplicateKind ++ ", " ++
        Text.ofNat r.undefinedCount ++ " " ++ Issue.undefinedKind] }

def render (r : Report) : Text :=
  let separator : Text := List.replicate 60 61
  Text.unlines [separator, "LINT REPORT: " ++ r.output, separator] ++
    if r.isClean then Text.unlines ["No lint issues found"] else r.table.render

/-- A report that could not be saved. -/
structure SaveError where
  cause : FileError
deriving DecidableEq, Repr

def SaveError.message (e : SaveError) : Text := "failed to create report file: " ++ e.cause.message

def save (r : Report) (tree : Tree) (path : Text) : Except SaveError Tree :=
  match tree.create path with
  | .error cause => .error ⟨cause⟩
  | .ok (place, tree) => .ok (tree.write place r.render)

end Report

end HackToolchain.Lint
