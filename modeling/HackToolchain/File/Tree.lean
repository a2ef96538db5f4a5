import HackToolchain.File.Path

/-!
A tree of files as a value. A place is the list of names that leads to it from the root; reading and
creating go by path, which is followed name by name as the tree stands, through the links in it.
-/

namespace HackToolchain

/-- The names that lead from the root to a file or directory. -/
abbrev Place := List Text

/-- What stands at a place. A link is symbolic: a path to be followed in its stead. A hard link is a twin:
one more name of the file at another place. -/
inductive FileNode
  | directory
  | file (contents : Text)
  | twin (place : Place)
  | link (target : Text)
deriving DecidableEq, Repr

/-- A directory's view of one of its members. -/
structure Entry where
  name : Text
  isDirectory : Bool
deriving DecidableEq, Repr

/-- Files and directories, and the directory where relative paths start. The root is a directory
without being listed. -/
structure Tree where
  nodes : List (Place × FileNode)
  here : Place
deriving DecidableEq, Repr

/-! ### Failures -/

/-- Why a path leads nowhere. -/
inductive PathFault
  | missing
  | notDirectory
  | isDirectory
  | looping
deriving DecidableEq, Repr

def PathFault.message : PathFault → Text
  | .missing => "no such file or directory"
  | .notDirectory => "not a directory"
  | .isDirectory => "is a directory"
  | .looping => "too many levels of symbolic links"

/-- What was tried with a file. -/
inductive FileAction
  | opening
  | inspection
  | reading
deriving DecidableEq, Repr

def FileAction.name : FileAction → Text
  | .opening => "open"
  | .inspection => "stat"
  | .reading => "read"

/-- An action on a file that failed. -/
structure FileError where
  action : FileAction
  path : Text
  fault : PathFault
deriving DecidableEq, Repr

def FileError.message (e : FileError) : Text := e.action.name ++ " " ++ e.path ++ ": " ++ e.fault.message

namespace Tree

/-! ### Places -/

def node? (t : Tree) (place : Place) : Option FileNode :=
  if place = [] then some .directory else t.nodes.lookup place

def isDirectory (t : Tree) (place : Place) : Bool := t.node? place == some .directory

def contents? (t : Tree) (place : Place) : Option Text :=
  match t.node? place with
  | some (.file contents) => some contents
  | _ => none

def put (t : Tree) (place : Place) (node : FileNode) : Tree :=
  let replace : Place × FileNode → Place × FileNode := fun (p, n) => if p = place then (p, node) else (p, n)
  { t with
    nodes := if (t.nodes.lookup place).isSome then t.nodes.map replace else t.nodes ++ [(place, node)] }

def write (t : Tree) (place : Place) (contents : Text) : Tree := t.put place (.file contents)

/-- The tree with directories at a place and on the way to it. -/
def makeDirectory (t : Tree) (place : Place) : Tree :=
  (List.range place.length).foldl (fun t n => t.put (place.take (n + 1)) .directory) t

def entries (t : Tree) (place : Place) : List Entry :=
  t.nodes.filterMap fun (p, node) =>
    if p ≠ [] ∧ p.dropLast = place then p.getLast?.map (⟨·, node == .directory⟩) else none

/-! ### Paths -/

/-- Where a path starts that is written in a directory. -/
def startOf (directory : Place) (path : Text) : Place := if Path.isAbsolute path then [] else directory

/-- How far names lead without a link: all the way to a place, or to a link, in whose stead other names are
to be followed. -/
inductive Stretch
  | arrived (place : Place)
  | linked (place : Place) (names : List Text)
deriving DecidableEq, Repr

/-- Follows one name from a place on, with others behind it. It is looked up in a directory; one dot and the
empty name stay there, and two dots go up. Where a file is to be created, nothing needs to stand at the last
name, and no slash may stand behind it. -/
def step (t : Tree) (creating : Bool) (place : Place) (name : Text) (rest : List Text) : Except PathFault Stretch :=
  if !t.isDirectory place then .error .notDirectory
  else if name = [] ∨ name = "." then .ok (.arrived place)
  else if name = ".." then .ok (.arrived place.dropLast)
  else if creating ∧ rest ≠ [] ∧ ∀ other ∈ rest, other = [] then .error .isDirectory
  else match t.node? (place ++ [name]) with
    | none => if creating ∧ rest = [] then .ok (.arrived (place ++ [name])) else .error .missing
    | some (.link target) => .ok (.linked (startOf place target) (Path.names target ++ rest))
    | some (.twin other) => .ok (.arrived other)
    | some _ => .ok (.arrived (place ++ [name]))

/-- Follows names from a place on, up to a link. -/
def stretch (t : Tree) (creating : Bool) : Place → List Text → Except PathFault Stretch
  | place, [] => .ok (.arrived place)
  | place, name :: rest =>
    match t.step creating place name rest with
    | .ok (.arrived next) => t.stretch creating next rest
    | stopped => stopped

/-- Follows names from a place on, through as many links as are left. -/
def follow (t : Tree) (creating : Bool) : (links : Nat) → Place → List Text → Except PathFault Place
  | links, place, names =>
    match t.stretch creating place names, links with
    | .error fault, _ => .error fault
    | .ok (.arrived found), _ => .ok found
    | .ok (.linked ..), 0 => .error .looping
    | .ok (.linked next others), left + 1 => t.follow creating left next others

/-- The number of links that one path may lead through. -/
def maxLinks : Nat := 40

def origin (t : Tree) (path : Text) : Place := startOf t.here path

/-- The place that a path leads to. -/
def resolve (t : Tree) (creating : Bool) (path : Text) : Except PathFault Place :=
  if path = [] then .error .missing else t.follow creating maxLinks (t.origin path) (Path.names path)

def locate (t : Tree) (path : Text) : Except PathFault Place := t.resolve false path

def herePath (t : Tree) : Text := Path.slash :: Text.join [Path.slash] t.here

def inspect (t : Tree) (path : Text) : Except FileError Place :=
  match t.locate path with
  | .ok place => .ok place
  | .error fault => .error ⟨.inspection, path, fault⟩

/-- Reads a file. A directory can be opened but not read. -/
def read (t : Tree) (path : Text) : Except FileError Text :=
  match t.locate path with
  | .error fault => .error ⟨.opening, path, fault⟩
  | .ok place =>
    match t.contents? place with
    | some contents => .ok contents
    | none => .error ⟨.reading, path, .isDirectory⟩

/-- The place of a file to be created, at which nothing but a file may stand. -/
def creationPlace (t : Tree) (path : Text) : Except PathFault Place :=
  match t.resolve true path with
  | .error fault => .error fault
  | .ok place =>
    match t.node? place with
    | none | some (.file _) => .ok place
    | some _ => .error .isDirectory

/-- Creates an empty file, or empties the one that is there. The place comes with the tree. -/
def create (t : Tree) (path : Text) : Except FileError (Place × Tree) :=
  match t.creationPlace path with
  | .error fault => .error ⟨.opening, path, fault⟩
  | .ok place => .ok (place, t.write place [])

end Tree

end HackToolchain
