import HackToolchain.Yaml.Node
import HackToolchain.Yaml.Token.Scan
import HackToolchain.Yaml.Value

/-!
The first document of a configuration text. Whatever comes after it has no effect, but the two tokens
after its end have to be readable.
-/

namespace HackToolchain.Yaml

open Token (Form)

/-- What is known while a document is read: what its tags are short for, the numbers of the names given so
far, the latest first, the nodes that have one, and the next number. -/
structure Draft where
  scan : Token.Scan
  handles : List (Text × Text) := []
  numbers : List (Text × Nat) := []
  named : List (Nat × Node) := []
  fresh : Nat := 0

abbrev Drafting := StateT Draft (Except SyntaxError)

namespace Drafting

def scan {α : Type} (scanning : Token.Scanning α) : Drafting α := fun d =>
  match scanning d.scan with
  | .ok (a, scan) => .ok (a, { d with scan })
  | .error e => .error e

def peek : Drafting Token := scan Token.Scanning.peek

def skip : Drafting Unit := scan Token.Scanning.skip

/-- Passes over a token of a form, if it comes next. -/
def accept (form : Form) : Drafting Bool := do
  if (← peek).form = form then
    skip
    return true
  else return false

/-- Passes over the comma in front of a member, which the first one does not have. -/
def separated (first : Bool) : Drafting Bool := if first then return true else accept .flowEntry

/-- Fails because the next token is unexpected in what starts on a line. -/
def unexpected {α : Type} (start : Nat) (problem : Text) : Drafting α := do
  throw (.ofOrder start (← peek).line problem)

def number : Drafting Nat := do
  let d ← get
  set { d with fresh := d.fresh + 1 }
  return d.fresh

/-! ### Names and tags -/

/-- What a node is marked with: a name, a tag, and the line of the first of them. -/
structure Marks where
  name : Option Text := none
  tag : Text := []
  line : Option Nat := none
deriving Repr

/-- The tag that a handle and what is behind it stand for. -/
def tagOf (start line : Nat) (handle suffix : Text) : Drafting Text := do
  if handle = [] then return suffix
  else
    match ((← get).handles.lookup handle).map (· ++ suffix) with
    | some (b :: tag) => return b :: tag
    | _ => throw (.ofOrder start line "found undefined tag handle")

def name? : Drafting (Option Text) := do
  match (← peek).form with
  | .anchor name =>
    skip
    return some name
  | _ => return none

/-- Reads a tag, whose meaning is looked up later. -/
def tag? : Drafting (Option (Text × Text × Nat)) := do
  let t ← peek
  match t.form with
  | .tag handle suffix =>
    skip
    return some (handle, suffix, t.line)
  | _ => return none

/-- Reads a name and a tag in either order. -/
def marks : Drafting Marks := do
  let start := (← peek).line
  let (name, tag) ← do
    match ← name? with
    | some name => pure (some name, ← tag?)
    | none =>
      let tag ← tag?
      if tag.isSome then pure (← name?, tag) else pure (none, none)
  let line := if name.isSome || tag.isSome then some start else none
  match tag with
  | some (handle, suffix, place) => return { name, line, tag := ← tagOf start place handle suffix }
  | none => return { name, line }

/-- The tag of a node that is marked, or the one it has by itself. -/
def Marks.tagOr (m : Marks) (own : Text) : Text :=
  if m.tag = [] ∨ m.tag = "!" then own else shortTag m.tag

/-- Gives a name to a node that is about to be read. -/
def announce (m : Marks) : Drafting (Option Nat) := do
  match m.name with
  | none => return none
  | some name =>
    let n ← number
    modify fun d => { d with numbers := (name, n) :: d.numbers }
    return some n

/-- Remembers a node under its number. -/
def record (announced : Option Nat) (node : Node) : Drafting Node := do
  match announced with
  | none => return node
  | some n =>
    modify fun d => { d with named := (n, node) :: d.named }
    return node

/-- The node that an alias stands for has to be named in front of it. -/
def aliasOf (name : Text) (line : Nat) : Drafting Node := do
  match (← get).numbers.lookup name with
  | some target => return .alias name target (← number) line
  | none => throw ⟨0, "unknown anchor '" ++ name ++ "' referenced"⟩

/-! ### Nodes -/

/-- A scalar as it stands, with the tag that fits it. -/
def scalarOf (m : Marks) (text : Text) (plain : Bool) (line : Nat) : Node :=
  .scalar text (m.tagOr (if plain then (Value.ofPlain text).tag else "!!str")) line

def empty (line : Nat) : Node := scalarOf {} [] true line

mutual

/-- Reads a node. In a block context it may be a block collection, and as a value in a mapping also a
list whose dashes are not indented. -/
def node : (fuel : Nat) → (block dashes : Bool) → Drafting Node
  | 0, _, _ => unexpected 1 "did not find expected node content"
  | fuel + 1, block, dashes => do
    let t ← peek
    match t.form with
    | .alias name =>
      skip
      aliasOf name t.line
    | _ =>
      let m ← marks
      let t ← peek
      let line := m.line.getD t.line
      let sequence (items : Drafting (List Node)) : Drafting Node := do
        let announced ← announce m
        record announced (.sequence (← items) (m.tagOr "!!seq") line)
      let mapping (members : Drafting (List (Node × Node))) : Drafting Node := do
        let announced ← announce m
        record announced (.mapping (← members) (m.tagOr "!!map") line)
      let scalar (text : Text) (plain : Bool) : Drafting Node := do
        record (← announce m) (scalarOf m text plain line)
      match t.form, block, dashes with
      | .scalar text plain, _, _ =>
        skip
        scalar text plain
      | .flowSequence, _, _ => sequence (skip *> flowItems fuel t.line true)
      | .flowMapping, _, _ => mapping (skip *> flowMembers fuel t.line true)
      | .blockEntry, _, true => sequence (dashItems fuel)
      | .blockSequence, true, _ => sequence (skip *> blockItems fuel t.line)
      | .blockMapping, true, _ => mapping (skip *> blockMembers fuel t.line)
      | _, _, _ =>
        if m.line.isSome then scalar [] true else unexpected line "did not find expected node content"
termination_by structural fuel => fuel

/-- Reads a node, or nothing on a line where one of some forms comes next. -/
def orEmpty : (fuel : Nat) → (stops : List Form) → (block dashes : Bool) → (line : Option Nat) → Drafting Node
  | 0, _, _, _, line => return empty (line.getD 1)
  | fuel + 1, stops, block, dashes, line => do
    let t ← peek
    if stops.contains t.form then return empty (line.getD t.line) else node fuel block dashes
termination_by structural fuel => fuel

/-- Reads the value of a key, or nothing where no colon comes next. -/
def valueOf : (fuel : Nat) → (stops : List Form) → (block : Bool) → Drafting Node
  | 0, _, _ => return empty 1
  | fuel + 1, stops, block => do
    let t ← peek
    if ← accept .value then orEmpty fuel stops block block (if block then some t.line else none)
    else return empty t.line
termination_by structural fuel => fuel

def blockItems : (fuel start : Nat) → Drafting (List Node)
  | 0, _ => return []
  | fuel + 1, start => do
    let t ← peek
    if ← accept .blockEnd then return []
    else if ← accept .blockEntry then
      let item ← orEmpty fuel [.blockEntry, .blockEnd] true false (some t.line)
      return item :: (← blockItems fuel start)
    else unexpected start "did not find expected '-' indicator"
termination_by structural fuel => fuel

/-- Reads the items of a list whose dashes are not indented. -/
def dashItems : (fuel : Nat) → Drafting (List Node)
  | 0 => return []
  | fuel + 1 => do
    let t ← peek
    if ← accept .blockEntry then
      let item ← orEmpty fuel [.blockEntry, .key, .value, .blockEnd] true false (some t.line)
      return item :: (← dashItems fuel)
    else return []
termination_by structural fuel => fuel

def blockMembers : (fuel start : Nat) → Drafting (List (Node × Node))
  | 0, _ => return []
  | fuel + 1, start => do
    let t ← peek
    if ← accept .blockEnd then return []
    else if ← accept .key then
      let key ← orEmpty fuel [.key, .value, .blockEnd] true true (some t.line)
      let value ← valueOf fuel [.key, .value, .blockEnd] true
      return (key, value) :: (← blockMembers fuel start)
    else unexpected start "did not find expected key"
termination_by structural fuel => fuel

/-- Reads the items of a flow list, of which one may be a mapping of a single key. -/
def flowItems : (fuel start : Nat) → (first : Bool) → Drafting (List Node)
  | 0, _, _ => return []
  | fuel + 1, start, first => do
    if ← accept .flowSequenceEnd then return []
    else if !(← separated first) then unexpected start "did not find expected ',' or ']'"
    else
      let t ← peek
      if ← accept .flowSequenceEnd then return []
      else if ← accept .key then
        let next ← peek
        let key ←
          if next.form = .value ∨ next.form = .flowEntry ∨ next.form = .flowSequenceEnd then
            skip
            pure (empty next.line)
          else node fuel false false
        let value ← valueOf fuel [.flowEntry, .flowSequenceEnd] false
        let _ ← peek
        return .mapping [(key, value)] "!!map" t.line :: (← flowItems fuel start false)
      else
        let item ← node fuel false false
        return item :: (← flowItems fuel start false)
termination_by structural fuel => fuel

def flowMembers : (fuel start : Nat) → (first : Bool) → Drafting (List (Node × Node))
  | 0, _, _ => return []
  | fuel + 1, start, first => do
    if ← accept .flowMappingEnd then return []
    else if !(← separated first) then unexpected start "did not find expected ',' or '\x7d'"
    else if ← accept .flowMappingEnd then return []
    else if ← accept .key then
      let key ← orEmpty fuel [.value, .flowEntry, .flowMappingEnd] false false none
      let value ← valueOf fuel [.flowEntry, .flowMappingEnd] false
      return (key, value) :: (← flowMembers fuel start false)
    else
      let key ← node fuel false false
      let value := empty (← peek).line
      return (key, value) :: (← flowMembers fuel start false)
termination_by structural fuel => fuel

end

/-! ### Documents -/

/-- What tags are short for in every document. -/
def commonHandles : List (Text × Text) := [("!", "!"), ("!!", "tag:yaml.org,2002:")]

/-- Reads directives. There is at most one version, which has to be 1.1, and one for each handle. -/
def directives : (fuel : Nat) → (versioned : Bool) → Drafting Unit
  | 0, _ => return
  | fuel + 1, versioned => do
    let t ← peek
    let refuse (problem : Text) : Drafting Unit := throw ⟨t.line - 1, problem⟩
    match t.form with
    | .version major minor =>
      if versioned then refuse "found duplicate %YAML directive"
      else if major ≠ 1 ∨ minor ≠ 1 then refuse "found incompatible YAML document"
      else
        skip
        directives fuel true
    | .handle name start =>
      if ((← get).handles.lookup name).isSome then refuse "found duplicate %TAG directive"
      else
        modify fun d => { d with handles := d.handles ++ [(name, start)] }
        skip
        directives fuel versioned
    | _ => return

/-- Reads the root of a document, which may be empty after a mark that starts it. -/
def root : Drafting (Option Node) := do
  let limit := (← get).scan.cursor.limit
  let depth := 16 * limit + 16
  let t ← peek
  match t.form with
  | .textEnd => return none
  | .version .. | .handle .. | .documentStart =>
    directives depth false
    modify fun d => { d with handles := d.handles ++ commonHandles }
    if ← accept .documentStart then
      let next ← peek
      match next.form with
      | .version .. | .handle .. | .documentStart | .documentEnd | .textEnd => return some (empty next.line)
      | _ => return some (← node depth true false)
    else throw ⟨(← peek).line - 1, "did not find expected <document start>"⟩
  | _ =>
    modify fun d => { d with handles := commonHandles }
    return some (← node depth true false)

end Drafting

/-- Reads the first document of a text; an empty text counts as an empty line. -/
def Document.ofText (t : Text) : Except SyntaxError Document :=
  let stream := Stream.ofText (if t = [] then [Text.newline] else t)
  let reading : Drafting (Option Node) := do
    let root ← Drafting.root
    if root.isSome then
      let _ ← Drafting.peek
    return root
  match reading { scan := { cursor := { stream } } } with
  | .error e => .error e
  | .ok (root, draft) => .ok { root, named := draft.named, size := draft.scan.nextNumber + 1 }

end HackToolchain.Yaml
