import HackToolchain.Proofs.File.Tree
import HackToolchain.Proofs.Lookup

/-!
Trees without links. A path leads to the place that its names spell, so that it ends in the last of them, and
cleaning it makes no difference to where it leads.
-/

namespace HackToolchain.Tree

/-- A tree that a file system can hold: no name has a slash, and no place is listed twice. -/
structure Sound (t : Tree) : Prop where
  plain : ∀ entry ∈ t.nodes, ∀ name ∈ entry.1, Path.slash ∉ name
  distinct : (t.nodes.map (·.1)).Nodup

/-- Every file has one name, which is no path to another one. -/
def Linkless (t : Tree) : Prop := ∀ entry ∈ t.nodes, entry.2 = .directory ∨ ∃ contents, entry.2 = .file contents

section Linkless

variable {t : Tree} (linkless : t.Linkless)

include linkless

theorem Linkless.node {place : Place} {node : FileNode} (found : t.node? place = some node) :
    node = .directory ∨ ∃ contents, node = .file contents := by
  unfold node? at found
  split at found
  · exact .inl (Option.some.inj found).symm
  · exact linkless (place, node) (mem_of_lookup found)

/-- A step in a tree without links. -/
theorem Linkless.step {creating : Bool} {place : Place} {name : Text} {rest : List Text} {r : Stretch}
    (stepped : t.step creating place name rest = .ok r) :
    (name = [] ∨ name = ".") ∧ r = .arrived place ∨ name = ".." ∧ r = .arrived place.dropLast ∨
      Path.IsName name ∧ r = .arrived (place ++ [name]) ∧ (creating = false → t.node? (place ++ [name]) ≠ none) := by
  obtain ⟨-, steps⟩ := step_ok.mp stepped
  cases steps with
  | stay here => exact .inl ⟨here, rfl⟩
  | up => exact .inr (.inl ⟨rfl, rfl⟩)
  | down proper bare found plain => exact .inr (.inr ⟨proper, rfl, fun _ => by simp [found]⟩)
  | new proper makes absent => exact .inr (.inr ⟨proper, rfl, fun finds => by simp [makes] at finds⟩)
  | twin proper bare found => rcases linkless.node found with impossible | ⟨_, impossible⟩ <;> cases impossible
  | link proper bare found => rcases linkless.node found with impossible | ⟨_, impossible⟩ <;> cases impossible

theorem Linkless.stretch {creating : Bool} {start : Place} {names : List Text} {r : Stretch}
    (led : t.stretch creating start names = .ok r) : ∃ place, r = .arrived place := by
  induction names generalizing start with
  | nil => exact ⟨start, (Except.ok.inj led).symm⟩
  | cons name rest ih =>
    rcases stretch_cons.mp led with ⟨next, -, led⟩ | ⟨next, others, stepped, rfl⟩
    · exact ih led
    · rcases linkless.step stepped with ⟨-, same⟩ | ⟨-, same⟩ | ⟨-, same, -⟩ <;> cases same

theorem Linkless.resolve_iff {creating : Bool} {path : Text} {place : Place} :
    t.resolve creating path = .ok place ↔
      path ≠ [] ∧ t.stretch creating (t.origin path) (Path.names path) = .ok (.arrived place) := by
  rw [resolve_ok]
  apply and_congr_right
  intro nonempty
  rw [follow_ok]
  apply or_iff_left
  rintro ⟨left, next, others, -, linked, -⟩
  obtain ⟨place, impossible⟩ := linkless.stretch linked
  cases impossible

/-- A path that ends in a name leads to a place that does. -/
theorem Linkless.stretch_last {creating : Bool} {start : Place} {front : List Text} {name : Text} (proper : Path.IsName name)
    {r : Stretch} (led : t.stretch creating start (front ++ [name]) = .ok r) :
    ∃ parent, r = .arrived (parent ++ [name]) ∧ (creating = false → t.node? (parent ++ [name]) ≠ none) := by
  induction front generalizing start with
  | nil =>
    rcases stretch_cons.mp led with ⟨next, stepped, led⟩ | ⟨next, others, stepped, rfl⟩
    · obtain rfl := Except.ok.inj led
      rcases linkless.step stepped with ⟨stays, -⟩ | ⟨up, -⟩ | ⟨-, same, there⟩
      · exact absurd stays proper.1
      · exact absurd up proper.2
      · exact ⟨start, same, there⟩
    · obtain ⟨place, impossible⟩ := linkless.stretch led
      cases impossible
  | cons first front ih =>
    rcases stretch_cons.mp led with ⟨next, stepped, led⟩ | ⟨next, others, stepped, rfl⟩
    · exact ih led
    · obtain ⟨place, impossible⟩ := linkless.stretch led
      cases impossible

theorem Linkless.resolve_suffix {creating : Bool} {path : Text} {place : Place} {ending : Text} (proper : Path.Proper ending)
    (ends : ending <:+ path) (led : t.resolve creating path = .ok place) :
    ∃ parent name, place = parent ++ [name] ∧ ending <:+ name ∧ (creating = false → t.node? place ≠ none) := by
  obtain ⟨front, name, split, last⟩ := Path.names_suffix proper ends
  have stretched := (linkless.resolve_iff.mp led).2
  rw [split] at stretched
  obtain ⟨parent, same, there⟩ := linkless.stretch_last (proper.name last) stretched
  cases same
  exact ⟨parent, name, rfl, last, there⟩

end Linkless

/-! ### Cleaned paths -/

/-- What stands behind a name makes no difference to a step where nothing is created. -/
theorem step_rest (t : Tree) (place : Place) (name : Text) (rest : List Text) {next : Place} :
    t.step false place name rest = .ok (.arrived next) ↔ t.step false place name [] = .ok (.arrived next) := by
  have same (rest rest' : List Text) (stepped : t.step false place name rest = .ok (.arrived next)) :
      t.step false place name rest' = .ok (.arrived next) := by
    obtain ⟨directory, steps⟩ := step_ok.mp stepped
    apply step_ok.mpr
    refine ⟨directory, ?_⟩
    cases steps with
    | stay here => exact .stay here
    | up => exact .up
    | down proper bare found plain => exact .down proper (by simp) found plain
    | new proper makes absent => cases makes
    | twin proper bare found => exact .twin proper (by simp) found
  exact ⟨same rest [], same [] rest⟩

theorem stretch_append {t : Tree} {start place : Place} {front back : List Text} :
    t.stretch false start (front ++ back) = .ok (.arrived place) ↔
      ∃ middle, t.stretch false start front = .ok (.arrived middle) ∧ t.stretch false middle back = .ok (.arrived place) := by
  induction front generalizing start with
  | nil => simp [stretch]
  | cons name front ih =>
    simp only [List.cons_append, stretch_cons, reduceCtorEq, and_false, exists_false, or_false, ih]
    constructor
    · rintro ⟨next, stepped, middle, led, rest⟩
      exact ⟨middle, ⟨next, (step_rest ..).mpr ((step_rest ..).mp stepped), led⟩, rest⟩
    · rintro ⟨middle, ⟨next, stepped, led⟩, rest⟩
      exact ⟨next, (step_rest ..).mpr ((step_rest ..).mp stepped), middle, led, rest⟩

theorem stretch_single {t : Tree} {start place : Place} {name : Text} :
    t.stretch false start [name] = .ok (.arrived place) ↔ t.step false start name [] = .ok (.arrived place) := by
  rw [stretch_cons]
  simp [stretch]

section Cleaning

variable {t : Tree} (linkless : t.Linkless)

include linkless

/-- Cleaning leads the same way, name by name. `before` is what is kept of the names in front, the last one
first. -/
theorem Linkless.stretch_cleaned {rooted : Bool} {start : Place} (root : rooted = true → start = []) {before rest : List Text}
    {middle place : Place} (kept : ∀ name ∈ before, Path.IsKept name)
    (led : t.stretch false start before.reverse = .ok (.arrived middle))
    (onward : t.stretch false middle rest = .ok (.arrived place)) (plain : ∀ name ∈ rest, Path.slash ∉ name) :
    t.stretch false start (rest.foldl (Path.cleanStep rooted) before).reverse = .ok (.arrived place) := by
  induction rest generalizing before middle with
  | nil =>
    cases onward
    exact led
  | cons name rest ih =>
    obtain ⟨here, later⟩ := List.forall_mem_cons.mp plain
    have sound := @Path.cleanStep_kept rooted before kept name here
    rcases stretch_cons.mp onward with ⟨next, stepped, onward⟩ | ⟨next, others, stepped, impossible⟩
    · refine ih sound ?_ onward later
      have added : t.stretch false start (before.reverse ++ [name]) = .ok (.arrived next) :=
        stretch_append.mpr ⟨middle, led, stretch_single.mpr ((step_rest ..).mp stepped)⟩
      rcases linkless.step stepped with ⟨stays, same⟩ | ⟨rfl, same⟩ | ⟨proper, same, -⟩
      · cases same
        unfold Path.cleanStep
        rwa [if_pos stays]
      · cases same
        unfold Path.cleanStep
        rw [if_neg (by decide), if_pos rfl]
        cases before with
        | nil =>
          obtain rfl : start = middle := by simpa [Tree.stretch] using led
          cases rooted with
          | true =>
            rw [root rfl]
            rfl
          | false => exact added
        | cons last before =>
          dsimp only
          split
          · rw [List.reverse_cons]
            exact added
          · -- The name in front was a step down, which two dots take back.
            rename_i inside
            rw [List.reverse_cons] at led
            obtain ⟨above, front, down⟩ := stretch_append.mp led
            have proper : Path.IsName last := ((List.forall_mem_cons.mp kept).1.1).resolve_right inside
            rcases linkless.step (stretch_single.mp down) with ⟨stays, -⟩ | ⟨up, -⟩ | ⟨-, same, -⟩
            · exact absurd stays proper.1
            · exact absurd up proper.2
            · cases same
              rw [List.dropLast_concat]
              exact front
      · rw [Path.cleanStep_name _ _ proper, List.reverse_cons]
        exact added
    · cases impossible

/-- A member of a directory is found by the path of the directory with its name joined to it. -/
theorem Linkless.locate_join {directory name : Text} {place : Place} {node : FileNode} (located : t.locate directory = .ok place)
    (inside : t.isDirectory place = true) (proper : Path.IsName name) (plain : Path.slash ∉ name)
    (found : t.node? (place ++ [name]) = some node) : t.locate (Path.join directory name) = .ok (place ++ [name]) := by
  obtain ⟨nonempty, led⟩ := linkless.resolve_iff.mp located
  have down : t.step false place name [] = .ok (.arrived (place ++ [name])) :=
    step_ok.mpr ⟨inside, .down proper (by simp) found (linkless.node found)⟩
  have whole := stretch_append.mpr ⟨place, led, stretch_single.mpr down⟩
  have names : Path.names (directory ++ Path.slash :: name) = Path.names directory ++ [name] := by
    rw [Path.names, Text.split_append, Text.split_of_not_mem plain, ← Path.names]
  have absolute : Path.isAbsolute (directory ++ Path.slash :: name) = Path.isAbsolute directory := by
    obtain ⟨b, rest, rfl⟩ := List.exists_cons_of_ne_nil nonempty
    rfl
  have some : Path.kept (directory ++ Path.slash :: name) ≠ [] := by
    rw [Path.kept, names, List.foldl_append, List.foldl_cons, List.foldl_nil, Path.cleanStep_name _ _ proper]
    simp
  obtain ⟨written, rooted, cleaned⟩ := Path.names_clean some
  have start : t.origin (Path.clean (directory ++ Path.slash :: name)) = t.origin directory := by
    rw [origin, origin, startOf, startOf, rooted, absolute]
  rw [Path.join, if_neg nonempty]
  apply linkless.resolve_iff.mpr
  refine ⟨written, ?_⟩
  rw [start, cleaned, absolute]
  have kept : t.stretch false (t.origin directory) (Path.kept (directory ++ Path.slash :: name)) = .ok (.arrived (place ++ [name])) := by
    rw [Path.kept, names, absolute]
    refine linkless.stretch_cleaned ?_ (by simp) rfl whole ?_
    · intro rooted
      rw [origin, startOf, if_pos rooted]
    · rw [← names]
      exact fun other member => Text.split_free member
  -- The empty name in front of a rooted path stays at the root.
  split
  · rename_i rooted
    have root : t.origin directory = [] := by rw [origin, startOf, if_pos rooted]
    rw [root] at kept ⊢
    exact stretch_append.mpr ⟨[], rfl, kept⟩
  · exact kept

end Cleaning

/-! ### Members of directories -/

theorem mem_entries {t : Tree} {place : Place} {entry : Entry} (member : entry ∈ t.entries place) :
    ∃ node, (place ++ [entry.name], node) ∈ t.nodes ∧ entry.isDirectory = (node == .directory) := by
  obtain ⟨⟨listed, node⟩, present, found⟩ := List.mem_filterMap.mp member
  dsimp only at found
  split at found
  · rename_i inside
    obtain ⟨name, last, rfl⟩ := Option.map_eq_some_iff.mp found
    refine ⟨node, ?_, rfl⟩
    obtain ⟨front, rfl⟩ := List.getLast?_eq_some_iff.mp last
    rw [List.dropLast_concat] at inside
    rw [← inside.2]
    exact present
  · cases found

/-- In a sound tree without links a member that is no directory is read by its path. -/
theorem Linkless.read_member {t : Tree} (linkless : t.Linkless) (sound : t.Sound) {directory : Text} {place : Place} {entry : Entry}
    (located : t.locate directory = .ok place) (inside : t.isDirectory place = true) (member : entry ∈ t.entries place)
    (file : entry.isDirectory = false) (proper : Path.IsName entry.name) :
    ∃ contents, t.read (Path.join directory entry.name) = .ok contents := by
  obtain ⟨node, listed, kind⟩ := mem_entries member
  have found : t.node? (place ++ [entry.name]) = some node := by
    rw [node?, if_neg (by simp)]
    exact lookup_of_mem sound.distinct listed
  have plain := sound.plain _ listed entry.name (by simp)
  rcases linkless _ listed with rfl | ⟨contents, rfl⟩
  · rw [file] at kind
    cases kind
  · refine ⟨contents, read_ok.mpr ⟨_, linkless.locate_join located inside proper plain found, ?_⟩⟩
    rw [contents?, found]

end HackToolchain.Tree
