import HackToolchain.Text

/-!
Paths as they are written: names with slashes between them. Nothing here looks at a file tree.
-/

namespace HackToolchain.Path

def slash : UInt8 := 47

def isAbsolute (path : Text) : Bool := path.head? == some slash

/-- The names of a path, an empty one wherever a slash has none on one side. -/
def names (path : Text) : List Text := Text.split slash path

/-- Adds a name to the names in front of it, of which the last comes first. Two dots cancel the name
in front of them, and at the root they have no effect. -/
def cleanStep (rooted : Bool) (kept : List Text) (name : Text) : List Text :=
  if name = [] ∨ name = "." then kept
  else if name = ".." then
    match kept with
    | [] => if rooted then [] else [name]
    | last :: rest => if last = ".." then name :: kept else rest
  else name :: kept

/-- The shortest path with the same meaning wherever no name is a link. -/
def clean (path : Text) : Text :=
  let rooted := isAbsolute path
  let body := Text.join [slash] ((names path).foldl (cleanStep rooted) []).reverse
  if rooted then slash :: body else if body = [] then "." else body

def base (path : Text) : Text :=
  match ((names path).filter (· ≠ [])).getLast? with
  | some name => name
  | none => if path = [] then "." else [slash]

def join (path more : Text) : Text :=
  if path = [] then (if more = [] then [] else clean more) else clean (path ++ slash :: more)

/-- The end of the last name from its last dot on, empty if it has none. -/
def extension (path : Text) : Text :=
  match (path.reverse.takeWhile (· ≠ slash)).span (· ≠ 46) with
  | (_, []) => []
  | (ending, dot :: _) => dot :: ending.reverse

/-- A path from the root on, given the path of the current directory. -/
def absolute (here path : Text) : Text := if isAbsolute path then clean path else join here path

end HackToolchain.Path
