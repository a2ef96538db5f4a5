import HackToolchain.Text

/-!
The values a configuration text is made of. Every node knows the line it starts on.
-/

namespace HackToolchain.Yaml

/-- A scalar, a list, a mapping, or an alias for a node that has a name. The text of a scalar is its value
without quotes, and its tag says what it means. An alias knows the number of the node it stands for; it
has a number itself by which it is told apart from other aliases. -/
inductive Node
  | scalar (text tag : Text) (line : Nat)
  | sequence (items : List Node) (tag : Text) (line : Nat)
  | mapping (members : List (Node × Node)) (tag : Text) (line : Nat)
  | alias (name : Text) (target number line : Nat)
deriving Repr

namespace Node

def line : Node → Nat
  | .scalar _ _ line | .sequence _ _ line | .mapping _ _ line | .alias _ _ _ line => line

/-- What a node can be told apart by as a key: its form, and its text or name. -/
def identity : Node → Nat × Text
  | .scalar text _ _ => (0, text)
  | .sequence .. => (1, [])
  | .mapping .. => (2, [])
  | .alias name _ _ _ => (3, name)

end Node

def shortTag (tag : Text) : Text :=
  let start : Text := "tag:yaml.org,2002:"
  if start.isPrefixOf tag then "!!" ++ tag.drop start.length else tag

/-- What a text holds: at most one root, and the nodes that have a name by their numbers. The size is more
than the number of nodes. -/
structure Document where
  root : Option Node := none
  named : List (Nat × Node) := []
  size : Nat := 1
deriving Repr

end HackToolchain.Yaml
