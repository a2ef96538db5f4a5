import HackToolchain.File.Tree
import HackToolchain.Proofs.File.Path

/-!
What writing into a tree changes: the place that is written to, and nothing else. A path leads where it led
before, through links too, and a file that was created is found by the path of its creation.
-/

namespace HackToolchain.Tree

theorem lookup_replace {nodes : List (Place × FileNode)} {place other : Place} {node : FileNode} :
    (nodes.map fun (p, n) => if p = place then (p, node) else (p, n)).lookup other =
      if other = place then (nodes.lookup place).map fun _ => node else nodes.lookup other := by
  induction nodes with
  | nil => simp
  | cons first nodes ih =>
    obtain ⟨p, n⟩ := first
    by_cases here : other = p
    · subst here
      by_cases same : other = place
      · simp [same]
      · simp [same]
    · have skip : (other == p) = false := by simpa using here
      have head : (if p = place then (p, node) else (p, n)) = (p, if p = place then node else n) := by split <;> rfl
      rw [List.map_cons]
      dsimp only
      rw [head, List.lookup_cons, skip, ih]
      by_cases same : other = place
      · subst same
        simp [List.lookup_cons, skip]
      · simp [same, List.lookup_cons, skip]

theorem node?_put (t : Tree) {place other : Place} (node : FileNode) (inside : place ≠ []) :
    (t.put place node).node? other = if other = place then some node else t.node? other := by
  unfold node? put
  by_cases root : other = []
  · rw [if_pos root, if_pos root, if_neg]
    rintro rfl
    exact inside root
  · rw [if_neg root, if_neg root]
    dsimp only
    split
    · rename_i present
      rw [lookup_replace]
      split
      · obtain ⟨old, found⟩ := Option.isSome_iff_exists.mp present
        rw [found]
        rfl
      · rfl
    · rename_i absent
      have fresh : t.nodes.lookup place = none := Option.not_isSome_iff_eq_none.mp absent
      rw [List.lookup_append]
      split
      · rename_i same
        subst same
        simp [fresh]
      · rename_i different
        have skip : (other == place) = false := by simpa using different
        simp [List.lookup_cons, skip]

theorem contents?_write (t : Tree) {place : Place} (contents : Text) (inside : place ≠ []) :
    (t.write place contents).contents? place = some contents := by
  rw [contents?, write, node?_put t _ inside, if_pos rfl]

theorem node?_write_of_ne (t : Tree) {place other : Place} (contents : Text) (inside : place ≠ []) (different : other ≠ place) :
    (t.write place contents).node? other = t.node? other := by
  rw [write, node?_put t _ inside, if_neg different]

/-- Where a file can be written: at most a file stands there, neither a directory nor a link. -/
def Free (t : Tree) (place : Place) : Prop := ∀ node, t.node? place = some node → ∃ contents, node = .file contents

theorem Free.inside {t : Tree} {place : Place} (free : t.Free place) : place ≠ [] := by
  rintro rfl
  obtain ⟨contents, impossible⟩ := free .directory rfl
  cases impossible

theorem Free.write {t : Tree} {place other : Place} (free : t.Free other) (contents : Text) (inside : place ≠ []) :
    (t.write place contents).Free other := by
  intro node found
  rw [Tree.write, node?_put t _ inside] at found
  split at found
  · exact ⟨contents, (Option.some.inj found).symm⟩
  · exact free node found

theorem isDirectory_write {t : Tree} {place : Place} (free : t.Free place) (contents : Text) (other : Place) :
    (t.write place contents).isDirectory other = t.isDirectory other := by
  by_cases same : other = place
  · subst same
    have before : t.node? other ≠ some .directory := by
      intro directory
      obtain ⟨_, impossible⟩ := free _ directory
      cases impossible
    have after : (t.write other contents).node? other ≠ some .directory := by
      rw [write, node?_put t _ free.inside, if_pos rfl]
      intro impossible
      cases impossible
    rw [isDirectory, isDirectory, beq_eq_false_iff_ne.mpr before, beq_eq_false_iff_ne.mpr after]
  · rw [isDirectory, isDirectory, node?_write_of_ne t contents free.inside same]

theorem creationPlace_ok {t : Tree} {path : Text} {place : Place} (found : t.creationPlace path = .ok place) :
    t.Free place ∧ t.resolve true path = .ok place := by
  unfold creationPlace at found
  split at found
  · cases found
  · rename_i reached led
    split at found
    · rename_i absent
      obtain rfl := Except.ok.inj found
      refine ⟨fun node present => ?_, led⟩
      cases absent.symm.trans present
    · rename_i contents file
      obtain rfl := Except.ok.inj found
      exact ⟨fun node present => ⟨contents, Option.some.inj (present.symm.trans file)⟩, led⟩
    · cases found

theorem create_ok {t after : Tree} {path : Text} {place : Place} (created : t.create path = .ok (place, after)) :
    t.Free place ∧ after = t.write place [] ∧ t.creationPlace path = .ok place := by
  unfold create at created
  split at created
  · cases created
  · rename_i found
    obtain ⟨rfl, rfl⟩ := Prod.mk.inj (Except.ok.inj created)
    exact ⟨(creationPlace_ok found).1, rfl, found⟩

theorem read_ok {t : Tree} {path contents : Text} :
    t.read path = .ok contents ↔ ∃ place, t.locate path = .ok place ∧ t.contents? place = some contents := by
  unfold read
  cases t.locate path with
  | error fault => simp
  | ok place =>
    dsimp only
    cases held : t.contents? place with
    | none => simp [held]
    | some found => simp [held]

theorem resolve_ok {t : Tree} {creating : Bool} {path : Text} {place : Place} :
    t.resolve creating path = .ok place ↔
      path ≠ [] ∧ t.follow creating maxLinks (t.origin path) (Path.names path) = .ok place := by
  unfold resolve
  split
  · rename_i empty
    simp [empty]
  · rename_i nonempty
    simp [nonempty]

/-! ### Steps along a path -/

/-- What a step along a path can be, from a directory on. -/
inductive Steps (t : Tree) (creating : Bool) (place : Place) : Text → List Text → Stretch → Prop
  | stay {name : Text} {rest : List Text} (here : name = [] ∨ name = ".") : Steps t creating place name rest (.arrived place)
  | up {rest : List Text} : Steps t creating place ".." rest (.arrived place.dropLast)
  | down {name : Text} {rest : List Text} {node : FileNode} (proper : Path.IsName name)
    (bare : ¬ (creating ∧ rest ≠ [] ∧ ∀ other ∈ rest, other = [])) (found : t.node? (place ++ [name]) = some node)
    (plain : node = .directory ∨ ∃ contents, node = .file contents) :
    Steps t creating place name rest (.arrived (place ++ [name]))
  | new {name : Text} (proper : Path.IsName name) (makes : creating = true) (absent : t.node? (place ++ [name]) = none) :
    Steps t creating place name [] (.arrived (place ++ [name]))
  | twin {name : Text} {rest : List Text} {other : Place} (proper : Path.IsName name)
    (bare : ¬ (creating ∧ rest ≠ [] ∧ ∀ other ∈ rest, other = [])) (found : t.node? (place ++ [name]) = some (.twin other)) :
    Steps t creating place name rest (.arrived other)
  | link {name target : Text} {rest : List Text} (proper : Path.IsName name)
    (bare : ¬ (creating ∧ rest ≠ [] ∧ ∀ other ∈ rest, other = [])) (found : t.node? (place ++ [name]) = some (.link target)) :
    Steps t creating place name rest (.linked (startOf place target) (Path.names target ++ rest))

theorem step_ok {t : Tree} {creating : Bool} {place : Place} {name : Text} {rest : List Text} {r : Stretch} :
    t.step creating place name rest = .ok r ↔ t.isDirectory place = true ∧ t.Steps creating place name rest r := by
  unfold step
  constructor
  · intro stepped
    split at stepped
    · cases stepped
    · rename_i directory
      refine ⟨by simpa using directory, ?_⟩
      split at stepped
      · rename_i here
        cases stepped
        exact .stay here
      · rename_i moves
        split at stepped
        · rename_i dots
          cases stepped
          rw [dots]
          exact .up
        · rename_i inside
          have proper : Path.IsName name := ⟨moves, inside⟩
          split at stepped
          · cases stepped
          · rename_i bare
            split at stepped
            · rename_i absent
              split at stepped
              · rename_i last
                cases stepped
                rw [last.2]
                exact .new proper last.1 absent
              · cases stepped
            · rename_i found
              cases stepped
              exact .link proper bare found
            · rename_i found
              cases stepped
              exact .twin proper bare found
            · rename_i node noLink noTwin found
              cases stepped
              refine .down proper bare found ?_
              cases node with
              | directory => exact .inl rfl
              | file contents => exact .inr ⟨contents, rfl⟩
              | twin other => exact (noTwin other rfl).elim
              | link target => exact (noLink target rfl).elim
  · rintro ⟨directory, steps⟩
    rw [if_neg (by simp [directory])]
    cases steps with
    | stay here => rw [if_pos here]
    | up => rfl
    | down proper bare found plain =>
      rw [if_neg proper.1, if_neg proper.2, if_neg bare, found]
      rcases plain with rfl | ⟨contents, rfl⟩ <;> rfl
    | new proper makes absent =>
      rw [if_neg proper.1, if_neg proper.2, if_neg (by simp), absent]
      exact if_pos ⟨makes, rfl⟩
    | twin proper bare found => rw [if_neg proper.1, if_neg proper.2, if_neg bare, found]
    | link proper bare found => rw [if_neg proper.1, if_neg proper.2, if_neg bare, found]

/-- What holds of a stretch by one step more. -/
theorem stretch_cons {t : Tree} {creating : Bool} {place : Place} {name : Text} {rest : List Text} {r : Stretch} :
    t.stretch creating place (name :: rest) = .ok r ↔
      (∃ next, t.step creating place name rest = .ok (.arrived next) ∧ t.stretch creating next rest = .ok r) ∨
        ∃ next names, t.step creating place name rest = .ok (.linked next names) ∧ r = .linked next names := by
  rw [stretch]
  rcases t.step creating place name rest with fault | ⟨next⟩ | ⟨next, names⟩
  · simp
  · simp
  · simp [eq_comm]

theorem follow_ok {t : Tree} {creating : Bool} {links : Nat} {start found : Place} {names : List Text} :
    t.follow creating links start names = .ok found ↔
      t.stretch creating start names = .ok (.arrived found) ∨
        ∃ left next others, links = left + 1 ∧ t.stretch creating start names = .ok (.linked next others) ∧
          t.follow creating left next others = .ok found := by
  conv_lhs => unfold follow
  rcases t.stretch creating start names with fault | ⟨place⟩ | ⟨next, others⟩
  · simp
  · simp
  · cases links with
    | zero => simp
    | succ left => simp

/-- A path leads to a place in another tree too if every stretch of it does that may end there. -/
theorem follow_carried {t t' : Tree} {creating creating' : Bool} {found : Place}
    (carried : ∀ start names r, t.stretch creating start names = .ok r → (∀ place, r = .arrived place → place = found) →
      t'.stretch creating' start names = .ok r)
    {links : Nat} {start : Place} {names : List Text} (led : t.follow creating links start names = .ok found) :
    t'.follow creating' links start names = .ok found := by
  induction links generalizing start names with
  | zero =>
    rcases follow_ok.mp led with arrives | ⟨left, _, _, impossible, _⟩
    · exact follow_ok.mpr (.inl (carried start names _ arrives (by simp)))
    · cases impossible
  | succ links ih =>
    rcases follow_ok.mp led with arrives | ⟨left, next, others, same, linked, onward⟩
    · exact follow_ok.mpr (.inl (carried start names _ arrives (by simp)))
    · cases same
      exact follow_ok.mpr (.inr ⟨links, next, others, rfl, carried start names _ linked (by simp), ih onward⟩)

/-! ### Paths after a file is written -/

section Write

variable {t : Tree} {place : Place} (free : t.Free place) (contents : Text)

include free

/-- A step that can be taken can be taken still once a file is written, where it leads into that file too. -/
theorem step_write {creating : Bool} {start : Place} {name : Text} {rest : List Text} {r : Stretch}
    (stepped : t.step creating start name rest = .ok r) : (t.write place contents).step creating start name rest = .ok r := by
  obtain ⟨directory, steps⟩ := step_ok.mp stepped
  apply step_ok.mpr
  refine ⟨(isDirectory_write free contents start).trans directory, ?_⟩
  have here : (t.write place contents).node? place = some (.file contents) := by
    rw [write, node?_put t _ free.inside, if_pos rfl]
  have elsewhere {node : FileNode} (found : t.node? (start ++ [name]) = some node) (other : ∀ written, node ≠ .file written) :
      (t.write place contents).node? (start ++ [name]) = some node := by
    rw [node?_write_of_ne t contents free.inside, found]
    intro same
    obtain ⟨written, impossible⟩ := free node (same ▸ found)
    exact other written impossible
  cases steps with
  | stay stays => exact .stay stays
  | up => exact .up
  | down proper bare found plain =>
    by_cases same : start ++ [name] = place
    · exact .down proper bare (same ▸ here) (.inr ⟨contents, rfl⟩)
    · exact .down proper bare ((node?_write_of_ne t contents free.inside same).trans found) plain
  | new proper makes absent =>
    by_cases same : start ++ [name] = place
    · exact .down proper (by simp) (same ▸ here) (.inr ⟨contents, rfl⟩)
    · exact .new proper makes ((node?_write_of_ne t contents free.inside same).trans absent)
  | twin proper bare found => exact .twin proper bare (elsewhere found (by simp))
  | link proper bare found => exact .link proper bare (elsewhere found (by simp))

theorem stretch_write {creating : Bool} {start : Place} {names : List Text} {r : Stretch}
    (led : t.stretch creating start names = .ok r) : (t.write place contents).stretch creating start names = .ok r := by
  induction names generalizing start with
  | nil => exact led
  | cons name rest ih =>
    apply stretch_cons.mpr
    rcases stretch_cons.mp led with ⟨next, stepped, led⟩ | ⟨next, others, stepped, same⟩
    · exact .inl ⟨next, step_write free contents stepped, ih led⟩
    · exact .inr ⟨next, others, step_write free contents stepped, same⟩

theorem resolve_write {creating : Bool} {path : Text} {found : Place} (led : t.resolve creating path = .ok found) :
    (t.write place contents).resolve creating path = .ok found := by
  obtain ⟨nonempty, led⟩ := resolve_ok.mp led
  apply resolve_ok.mpr
  exact ⟨nonempty, follow_carried (fun _ _ _ led _ => stretch_write free contents led) led⟩

theorem read_write_of_ne {path before : Text} (elsewhere : t.locate path ≠ .ok place) (found : t.read path = .ok before) :
    (t.write place contents).read path = .ok before := by
  obtain ⟨reached, located, held⟩ := read_ok.mp found
  have other : reached ≠ place := by
    rintro rfl
    exact elsewhere located
  apply read_ok.mpr
  refine ⟨reached, resolve_write free contents located, ?_⟩
  rwa [contents?, node?_write_of_ne t contents free.inside other]

end Write

/-! ### Finding what was created -/

/-- A path that leads to something when a file is to be created leads there without that. -/
theorem step_existing {t : Tree} {place : Place} {name : Text} {rest : List Text} {r : Stretch}
    (stepped : t.step true place name rest = .ok r) (there : ∀ found, r = .arrived found → rest = [] → t.node? found ≠ none) :
    t.step false place name rest = .ok r := by
  obtain ⟨directory, steps⟩ := step_ok.mp stepped
  apply step_ok.mpr
  refine ⟨directory, ?_⟩
  cases steps with
  | stay stays => exact .stay stays
  | up => exact .up
  | down proper bare found plain => exact .down proper (by simp) found plain
  | new proper makes absent => exact absurd absent (there _ rfl rfl)
  | twin proper bare found => exact .twin proper (by simp) found
  | link proper bare found => exact .link proper (by simp) found

theorem stretch_existing {t : Tree} {place : Place} {names : List Text} {r : Stretch} (led : t.stretch true place names = .ok r)
    (there : ∀ found, r = .arrived found → t.node? found ≠ none) : t.stretch false place names = .ok r := by
  induction names generalizing place with
  | nil => exact led
  | cons name rest ih =>
    apply stretch_cons.mpr
    rcases stretch_cons.mp led with ⟨next, stepped, led⟩ | ⟨next, others, stepped, rfl⟩
    · refine .inl ⟨next, step_existing stepped ?_, ih led⟩
      rintro found same rfl
      cases same
      exact there next (Except.ok.inj led).symm
    · refine .inr ⟨next, others, step_existing stepped ?_, rfl⟩
      intro found impossible
      cases impossible

theorem locate_existing {t : Tree} {path : Text} {found : Place} (led : t.resolve true path = .ok found)
    (there : t.node? found ≠ none) : t.locate path = .ok found := by
  obtain ⟨nonempty, led⟩ := resolve_ok.mp led
  apply resolve_ok.mpr
  refine ⟨nonempty, follow_carried (fun start names r led ends => stretch_existing led ?_) led⟩
  intro place arrived
  rwa [ends place arrived]

/-- What was created is read by the path of its creation, and so is what is written there later. -/
theorem read_created {t : Tree} {path : Text} {place : Place} (placed : t.creationPlace path = .ok place) (contents : Text) :
    ((t.write place []).write place contents).locate path = .ok place ∧
      ((t.write place []).write place contents).read path = .ok contents := by
  obtain ⟨free, led⟩ := creationPlace_ok placed
  have located : ((t.write place []).write place contents).locate path = .ok place := by
    apply locate_existing
    · exact resolve_write (free.write [] free.inside) contents (resolve_write free [] led)
    · rw [write, node?_put _ _ free.inside, if_pos rfl]
      simp
  exact ⟨located, read_ok.mpr ⟨place, located, contents?_write _ _ free.inside⟩⟩

end HackToolchain.Tree
