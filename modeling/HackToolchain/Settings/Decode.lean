import HackToolchain.File.Tree
import HackToolchain.Settings
import HackToolchain.Yaml.Document
import HackToolchain.Yaml.Value

/-!
Settings from a configuration text. Keys that are not there keep their defaults, unknown ones have no
effect, and values of the wrong type are collected while the others are still taken. A mapping with a
repeated key sets nothing. Mappings under a merge key set what the mapping they are merged into does not
set itself.
-/

namespace HackToolchain.Settings

/-- A value that does not fit its place. -/
inductive TypeError
  | mismatch (line : Nat) (tag : Text) (value : Option Text) (target : Text)
  | duplicate (line : Nat) (key : Text) (first : Nat)
  | setTwice (line : Nat) (key target : Text)
deriving DecidableEq, Repr

/-- A value as it is shown in an error, cut where it is long. -/
def TypeError.excerpt (value : Text) : Text :=
  " `" ++ (if 10 < value.length then value.take 7 ++ "..." else value) ++ "`"

def TypeError.message : TypeError → Text
  | .mismatch line tag value target =>
    "line " ++ Text.ofNat line ++ ": cannot unmarshal " ++ tag ++ (value.map excerpt).getD [] ++ " into " ++ target
  | .duplicate line key first =>
    "line " ++ Text.ofNat line ++ ": mapping key " ++ key.quote ++ " already defined at line " ++ Text.ofNat first
  | .setTwice line key target =>
    "line " ++ Text.ofNat line ++ ": field " ++ key ++ " already set in type " ++ target

open Yaml (Node Value Document)

/-- The repeated keys of a mapping, each with every key of its kind in front of it. -/
def duplicates : List (Node × Node) → List TypeError
  | [] => []
  | (key, _) :: rest =>
    (rest.filter fun (other, _) => other.identity == key.identity).map
      (fun (other, _) => .duplicate other.line other.identity.2 key.line) ++ duplicates rest

/-! ### Decoding -/

/-- Why decoding stopped: the text is not well-formed after all, or a key was merged that cannot be
compared with others. -/
inductive Stop
  | malformed (e : Yaml.SyntaxError)
  | incomparableKey
deriving DecidableEq, Repr

/-- The settings and errors so far. While mappings are merged, the keys that are set already count; and
the aliases that are being followed are known by their numbers. -/
structure Progress where
  settings : Settings
  errors : List TypeError := []
  merged : Option (List Text) := none
  followed : List Nat := []

/-- An action that decodes. What was decoded before it stopped counts. -/
abbrev Decoding := EStateM Stop Progress

namespace Decoding

def stop {α : Type} (problem : Text) : Decoding α := throw (.malformed ⟨0, problem⟩)

def refuse (errors : List TypeError) : Decoding Unit := modify fun p => { p with errors := p.errors ++ errors }

def assign (change : Settings → Settings) : Decoding Unit :=
  modify fun p => { p with settings := change p.settings }

/-- The error of a node in a place of another type. -/
def mismatch (line : Nat) (tag text target : Text) : TypeError :=
  .mismatch line tag (if tag = "!!seq" ∨ tag = "!!map" then none else some text) target

def meaning (text tag : Text) : Decoding Value :=
  match Value.ofTagged tag text with
  | .ok value => return value
  | .error problem => stop problem

/-- Goes on with the node an alias stands for, unless that contains it. -/
def follow {α : Type} (document : Document) (name : Text) (target number : Nat) (nothing : α)
    (decode : Node → Decoding α) : Decoding α := do
  if (← get).followed.contains number then stop ("anchor '" ++ name ++ "' value contains itself")
  else
    modify fun p => { p with followed := number :: p.followed }
    let result ← match document.named.lookup target with
      | some node => decode node
      | none => return nothing
    modify fun p => { p with followed := p.followed.drop 1 }
    return result

/-! ### Keys -/

/-- The text of a key, if it has one. A null key has none, and a collection is an error. -/
def keyName (document : Document) : (fuel : Nat) → Node → Decoding (Option Text)
  | 0, _ => return none
  | fuel + 1, .alias name target number _ => follow document name target number none (keyName document fuel)
  | _ + 1, .scalar text tag _ => do
    match ← meaning text tag with
    | .null => return none
    | .text t => return some t
    | _ => return some text
  | _ + 1, .sequence _ tag line => do
    refuse [mismatch line tag [] "string"]
    return none
  | _ + 1, .mapping members tag line => do
    match duplicates members with
    | [] => refuse [mismatch line tag [] "string"]
    | repeated => refuse repeated
    return none

/-- What counts as a key that is set already: a text, if the key is one. A collection cannot be compared. -/
def mergeName (document : Document) : (fuel : Nat) → Node → Decoding (Option Text)
  | 0, _ => return none
  | fuel + 1, .alias name target number _ => follow document name target number none (mergeName document fuel)
  | _ + 1, .scalar text tag _ => do
    match ← meaning text tag with
    | .text t => return some t
    | _ => return none
  | _ + 1, .sequence .. => throw .incomparableKey
  | _ + 1, .mapping members .. => do
    match duplicates members with
    | [] => throw .incomparableKey
    | repeated =>
      refuse repeated
      return none

def isMergeKey : Node → Bool
  | .scalar text tag _ => text == "<<" && tag == "!!merge"
  | _ => false

/-! ### Values -/

/-- A place for a value: in one of the settings, or a record of places that have names. -/
inductive Target
  | text (set : Text → Settings → Settings)
  | integer (set : Int → Settings → Settings)
  | flag (set : Bool → Settings → Settings)
  | record (type : Text) (fields : List (Text × Target))

namespace Target

def type : Target → Text
  | .text _ => "string"
  | .integer _ => "int"
  | .flag _ => "bool"
  | .record type _ => type

/-- The integer a value gives. A decimal loses its fraction. -/
def integerOf? : Value → Option Int
  | .integer n => if Text.fitsWord n then some n else none
  | .real x => x.toWord?
  | _ => none

/-- The flag a value gives, which some further words stand for. -/
def flagOf? : Value → Option Bool
  | .flag b => some b
  | .text t =>
    let among (words : List String) : Bool := words.any fun word => Text.ofString word == t
    if among ["y", "Y", "yes", "Yes", "YES", "on", "On", "ON"] then some true
    else if among ["n", "N", "no", "No", "NO", "off", "Off", "OFF"] then some false
    else none
  | _ => none

/-- The change a scalar makes in a place, if it fits. Every scalar counts as a text. -/
def change? (target : Target) (text : Text) (value : Value) : Option (Settings → Settings) :=
  match target, value with
  | .text set, .text t => some (set t)
  | .text set, _ => some (set text)
  | .integer set, value => (integerOf? value).map set
  | .flag set, value => (flagOf? value).map set
  | .record .., _ => none

end Target

/-- What is known in the middle of a mapping: the node to merge, the fields that are set, and, in a
mapping that is merged itself, the keys that count as set. -/
structure Members where
  merge : Option Node := none
  done : List Text := []
  merged : Option (List Text)

/-- Decodes the members of a mapping one after the other, but for the merge key. -/
def members (name : Node → Decoding (Option Text)) (decode : Target → Node → Decoding Unit) (type : Text)
    (fields : List (Text × Target)) : List (Node × Node) → Members → Decoding Members
  | [], known => return known
  | (key, value) :: rest, known => do
    if isMergeKey key then members name decode type fields rest { known with merge := some value }
    else
      match ← name key with
      | none => members name decode type fields rest known
      | some field =>
        if known.merged.any (·.contains field) then members name decode type fields rest known
        else
          let known := { known with merged := known.merged.map (field :: ·) }
          match fields.lookup field with
          | none => members name decode type fields rest known
          | some target =>
            if known.done.contains field then
              refuse [.setTwice key.line field type]
              members name decode type fields rest known
            else
              decode target value
              members name decode type fields rest { known with done := field :: known.done }

/-- The mappings to be merged. Only a mapping, an alias of one, or a list of these can be. -/
def mergeable (document : Document) (decode : Node → Decoding Unit) (node : Node) : Decoding Unit := do
  let refused : Decoding Unit := stop "map merge requires map or sequence of maps as the value"
  let single (node : Node) : Decoding Unit :=
    match node with
    | .mapping .. => decode node
    | .alias _ target _ _ =>
      match document.named.lookup target with
      | some (.mapping ..) => decode node
      | _ => refused
    | _ => refused
  match node with
  | .sequence items _ _ => items.forM single
  | _ => single node

/-- Merges a node into a mapping with some keys. -/
def merge (document : Document) (name : Node → Decoding (Option Text)) (decode : Node → Decoding Unit)
    (entries : List (Node × Node)) (node : Node) : Decoding Unit := do
  if (← get).merged.isSome then mergeable document decode node
  else
    let names ← entries.mapM fun (key, _) => name key
    modify fun p => { p with merged := some (names.filterMap id) }
    mergeable document decode node
    modify fun p => { p with merged := none }

def decode (document : Document) : (fuel : Nat) → Target → Node → Decoding Unit
  | 0, _, _ => return
  | fuel + 1, target, .alias name number own _ => follow document name number own () (decode document fuel target)
  | _ + 1, target, .scalar text tag line => do
    match ← meaning text tag with
    | .null => return
    | value =>
      match target.change? text value with
      | some change => assign change
      | none => refuse [mismatch line tag text target.type]
  | _ + 1, target, .sequence _ tag line => refuse [mismatch line tag [] target.type]
  | fuel + 1, target, .mapping entries tag line => do
    match duplicates entries, target with
    | [], .record type fields =>
      let merged := (← get).merged
      modify fun p => { p with merged := none }
      let known ← members (keyName document fuel) (decode document fuel) type fields entries { merged }
      modify fun p => { p with merged := known.merged }
      match known.merge with
      | none => return
      | some node => merge document (mergeName document fuel) (decode document fuel target) entries node
    | [], _ => refuse [mismatch line tag [] target.type]
    | repeated, _ => refuse repeated

end Decoding

/-! ### The settings -/

open Decoding (Target)

def logFields : List (Text × Target) :=
  [("level", .text fun level s => { s with log := { s.log with level } }),
    ("format", .text fun format s => { s with log := { s.log with format } }),
    ("file", .text fun file s => { s with log := { s.log with file } })]

def fields : List (Text × Target) :=
  [("entry_point", .text fun entryPoint s => { s with entryPoint }),
    ("stack_base", .integer fun stackBase s => { s with stackBase }),
    ("bootstrap", .flag fun bootstrap s => { s with bootstrap }),
    ("output", .text fun output s => { s with output }),
    ("lint", .flag fun lint s => { s with lint }),
    ("log", .record "config.LogConfig" logFields)]

/-! ### Files -/

/-- Why settings could not be loaded. -/
inductive LoadError
  | unreadable (e : FileError)
  | malformed (path : Text) (e : Yaml.SyntaxError)
  | incomparableKey (path : Text)
  | types (path : Text) (errors : List TypeError)
  | invalid (e : Invalid)
deriving DecidableEq, Repr

def LoadError.message : LoadError → Text
  | .unreadable e => "failed to read config: " ++ e.message
  | .malformed path e => "failed to parse config " ++ path ++ ": " ++ e.message
  | .incomparableKey path => "failed to parse config " ++ path ++ ": key cannot be compared"
  | .types path errors =>
    "failed to parse config " ++ path ++ ": yaml: unmarshal errors:\n  " ++
      Text.join "\n  " (errors.map TypeError.message)
  | .invalid e => e.message

/-- The settings of a configuration text over the defaults, with the errors in it. Those decoded before
decoding stopped count. -/
def ofText (source : Text) : Settings × Option Stop × List TypeError :=
  match Document.ofText source with
  | .error e => (default, some (.malformed e), [])
  | .ok document =>
    match document.root with
    | none => (default, none, [])
    | some root =>
      let depth := 4 * document.size * document.size
      match Decoding.decode document depth (.record "config.Config" fields) root { settings := default } with
      | .ok _ progress => (progress.settings, none, progress.errors)
      | .error cause progress => (progress.settings, some cause, [])

/-- Loads settings from a file, decodes them and checks them. The settings read so far come with an error. -/
def load (decode : Text → Settings × Option Stop × List TypeError) (tree : Tree) (path : Text) :
    Settings × Option LoadError :=
  match tree.read path with
  | .error e => (default, some (.unreadable e))
  | .ok source =>
    match decode source with
    | (s, some (.malformed e), _) => (s, some (.malformed path e))
    | (s, some .incomparableKey, _) => (s, some (.incomparableKey path))
    | (s, none, []) => (s, s.invalid?.map .invalid)
    | (s, none, errors) => (s, some (.types path errors))

end HackToolchain.Settings
