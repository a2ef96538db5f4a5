import HackToolchain.Text.Columns

/-!
Tables drawn with ASCII rules. A column is as wide as its widest cell, each cell has one blank on
either side, and a cell of several lines makes its row as high as it needs.
-/

namespace HackToolchain

/-- A table. Header and footer are written in capitals; numeric columns are set flush right. -/
structure Table where
  title : Option Text
  header : List Text
  numeric : List Bool
  rows : List (List Text)
  footer : Option (List Text)
deriving DecidableEq, Repr

namespace Table

/-- What is left of a line when each carriage return starts it over, character by character. -/
def overwrite (line : Text) : Text :=
  let drafts : List (List Char) := line.chars.foldr
    (fun c drafts => if c = '\r' then [] :: drafts else drafts.modifyHead (c :: ·)) [[]]
  (drafts.foldl (fun shown later => later ++ shown.drop later.length) []).flatMap Text.ofChar

/-- A cell with one newline in place of each carriage return and newline. -/
def mendLineEnds : Text → Text
  | 13 :: 10 :: rest => 10 :: mendLineEnds rest
  | b :: rest => b :: mendLineEnds rest
  | [] => []

/-- The lines of a cell, four blanks in place of a tab stop. -/
def cellLines (cell : Text) : List Text :=
  let spread := cell.flatMap fun b => if b = 9 then [32, 32, 32, 32] else [b]
  (Text.split Text.newline (mendLineEnds spread)).map fun line =>
    if line.contains 13 then overwrite line else line

def cellWidth (cell : Text) : Nat := (Text.join [Text.newline] (cellLines cell)).columns

/-- A line of a cell without the blanks on its open side, filled up to a width. -/
def pad (numeric : Bool) (width : Nat) (line : Text) : Text :=
  let bare : Text := if numeric then line.dropWhile (· == 32) else (line.reverse.dropWhile (· == 32)).reverse
  let fill := List.replicate (width - bare.columns) 32
  if numeric then fill ++ bare else bare ++ fill

def head (t : Table) : List Text := t.header.map Text.upper

def foot (t : Table) : Option (List Text) := t.footer.map (·.map Text.upper)

def widths (t : Table) : List Nat :=
  let all := t.head :: t.rows ++ t.foot.toList
  (List.range t.header.length).map fun column =>
    (all.map fun row => cellWidth (row[column]?.getD [])).foldl max 0

def rule (widths : List Nat) : Text :=
  let dashes (width : Nat) : Text := List.replicate (width + 2) 45 ++ [43]
  "+" ++ widths.flatMap dashes ++ [Text.newline]

/-- A row, with as many lines as its highest cell. -/
def row (widths : List Nat) (numeric : List Bool) (cells : List Text) : Text :=
  let lines := cells.map cellLines
  let height := (lines.map List.length).foldl max 1
  let cell (level : Nat) : Nat × Bool × List Text → Text
    | (width, numeric, lines) => " " ++ pad numeric width (lines[level]?.getD []) ++ " |"
  let line (level : Nat) : Text :=
    "|" ++ (List.zip widths (List.zip numeric lines)).flatMap (cell level) ++ [Text.newline]
  (List.range height).flatMap line

def render (t : Table) : Text :=
  let widths := t.widths
  let inner := widths.foldl (fun sum width => sum + width + 3) 0 - 1
  let titled := match t.title with
    | some title =>
      rule [inner - 2] ++ "| " ++ pad false (inner - 2) title ++ " |" ++ [Text.newline]
    | none => []
  let footed := match t.foot with
    | some cells => row widths t.numeric cells ++ rule widths
    | none => []
  titled ++ rule widths ++ row widths t.numeric t.head ++ rule widths ++
    t.rows.flatMap (row widths t.numeric) ++ rule widths ++ footed

end Table

end HackToolchain
