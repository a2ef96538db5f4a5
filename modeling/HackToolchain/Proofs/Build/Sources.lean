import HackToolchain.Proofs.Build.Outcome
import HackToolchain.Proofs.File.Linkless

/-!
What a build leaves of its sources. A build writes to the place of its output only. In a tree without links the
output that belongs to the inputs never is at the place of a unit; an output that the settings name may be, and so may
one that is a link, and then the unit is lost.
-/

namespace HackToolchain.Build

variable {σ ε : Type}

/-- What can be read at another place than that of the output is read there still. -/
theorem run_read (e : Emitter σ ε) (settings : Settings) (tree : Tree) (path : Text) (s : σ) {file contents : Text}
    (before : tree.read file = .ok contents)
    (elsewhere : ∀ inputs, Inputs.resolve tree path = .ok inputs →
      tree.creationPlace (outputPath settings inputs) ≠ tree.locate file) :
    (run e settings tree path s).tree.read file = .ok contents := by
  rcases run_tree e settings tree path s with same | ⟨inputs, place, written, resolved, placed, same⟩
  · rw [same]
    exact before
  · obtain ⟨free, -⟩ := Tree.creationPlace_ok placed
    have other : tree.locate file ≠ .ok place := by
      intro located
      exact elsewhere inputs resolved (placed.trans located.symm)
    rw [same]
    apply Tree.read_write_of_ne (free.write [] free.inside) written
    · -- The file is found where it was before the output was created.
      obtain ⟨found, located, -⟩ := Tree.read_ok.mp before
      have after : (tree.write place []).locate file = .ok found := Tree.resolve_write free [] located
      rw [after]
      rwa [located] at other
    · exact Tree.read_write_of_ne free [] other before

/-! ### Units and outputs by their endings -/

theorem proper_source : Path.Proper Inputs.sourceEnding := ⟨by decide, by decide, by decide, by decide⟩

theorem proper_output : Path.Proper Inputs.outputEnding := ⟨by decide, by decide, by decide, by decide⟩

/-- Inputs are the sources of a directory or a single one, with an output that belongs to them. -/
theorem resolve_ok {tree : Tree} {path : Text} {inputs : Inputs} (resolved : Inputs.resolve tree path = .ok inputs) :
    ∃ place, tree.locate path = .ok place ∧
      (tree.isDirectory place = true ∧ inputs =
          { units := Inputs.unitsOf path (tree.entries place), output := Inputs.directoryOutput tree.herePath path } ∨
        tree.isDirectory place = false ∧ Path.extension path = Inputs.sourceEnding ∧ inputs =
          { units := [{ name := Inputs.unitName path, source := .file path }]
            output := Text.dropEnding Inputs.sourceEnding path ++ Inputs.outputEnding }) := by
  unfold Inputs.resolve Tree.inspect at resolved
  cases located : tree.locate path with
  | error fault =>
    rw [located] at resolved
    cases resolved
  | ok place =>
    rw [located] at resolved
    dsimp only at resolved
    refine ⟨place, rfl, ?_⟩
    split at resolved
    · rename_i directory
      unfold Inputs.ofDirectory at resolved
      split at resolved
      · cases resolved
      · exact .inl ⟨directory, (Except.ok.inj resolved).symm⟩
    · rename_i file
      unfold Inputs.ofFile at resolved
      split at resolved
      · rename_i source
        exact .inr ⟨Bool.eq_false_iff.mpr file, source, (Except.ok.inj resolved).symm⟩
      · cases resolved

/-- A unit is a member of the directory that the path leads to, or the file that it leads to. -/
theorem unit_cases {tree : Tree} {path : Text} {inputs : Inputs} {unit : SourceUnit}
    (resolved : Inputs.resolve tree path = .ok inputs) (member : unit ∈ inputs.units) :
    ∃ place file, tree.locate path = .ok place ∧ unit.source = .file file ∧
      ((∃ entry ∈ tree.entries place, tree.isDirectory place = true ∧ entry.isDirectory = false ∧
          Inputs.sourceEnding <:+ entry.name ∧ file = Path.join path entry.name) ∨
        tree.isDirectory place = false ∧ Inputs.sourceEnding <:+ path ∧ file = path) := by
  obtain ⟨place, located, ⟨directory, rfl⟩ | ⟨plain, source, rfl⟩⟩ := resolve_ok resolved
  · dsimp only at member
    unfold Inputs.unitsOf at member
    rw [List.mem_mergeSort] at member
    obtain ⟨entry, listed, rfl⟩ := List.mem_map.mp member
    obtain ⟨listed, source⟩ := List.mem_filter.mp listed
    simp only [Inputs.isSource, Bool.and_eq_true, Bool.not_eq_true', beq_iff_eq] at source
    refine ⟨place, _, located, rfl, .inl ⟨entry, listed, directory, source.1, ?_, rfl⟩⟩
    rw [← source.2]
    exact Path.extension_suffix entry.name
  · obtain rfl := List.mem_singleton.mp member
    refine ⟨place, path, located, rfl, .inr ⟨plain, ?_, rfl⟩⟩
    rw [← source]
    exact Path.extension_suffix path

theorem unit_suffix {tree : Tree} {path : Text} {inputs : Inputs} {unit : SourceUnit}
    (resolved : Inputs.resolve tree path = .ok inputs) (member : unit ∈ inputs.units) :
    ∃ file, unit.source = .file file ∧ Inputs.sourceEnding <:+ file := by
  obtain ⟨place, file, -, named, ⟨entry, -, -, -, ends, rfl⟩ | ⟨-, ends, rfl⟩⟩ := unit_cases resolved member
  · exact ⟨_, named, Path.suffix_joined proper_source ends⟩
  · exact ⟨_, named, ends⟩

theorem output_suffix {tree : Tree} {path : Text} {inputs : Inputs} (resolved : Inputs.resolve tree path = .ok inputs) :
    Inputs.outputEnding <:+ inputs.output := by
  obtain ⟨place, -, ⟨-, rfl⟩ | ⟨-, -, rfl⟩⟩ := resolve_ok resolved
  · exact Path.suffix_joined proper_output (List.suffix_append _ _)
  · exact List.suffix_append _ _

theorem endings_differ {name : Text} (source : Inputs.sourceEnding <:+ name) (output : Inputs.outputEnding <:+ name) : False := by
  have nested : Inputs.sourceEnding <:+ Inputs.outputEnding := List.suffix_of_suffix_length_le source output (by decide)
  exact absurd nested (by decide)

section Linkless

variable {tree : Tree} (linkless : tree.Linkless) {path : Text} {inputs : Inputs} (resolved : Inputs.resolve tree path = .ok inputs)

include linkless resolved

theorem output_elsewhere {file : Text} {place : Place} (source : Inputs.sourceEnding <:+ file)
    (placed : tree.creationPlace inputs.output = .ok place) : tree.locate file ≠ .ok place := by
  intro located
  obtain ⟨parent, name, rfl, ends, -⟩ := linkless.resolve_suffix proper_output (output_suffix resolved)
    (Tree.creationPlace_ok placed).2
  obtain ⟨other, last, same, named, -⟩ := linkless.resolve_suffix proper_source source located
  obtain ⟨-, rfl⟩ := List.append_singleton_inj.mp same
  exact endings_differ named ends

theorem unit_read (sound : tree.Sound) {unit : SourceUnit} (member : unit ∈ inputs.units) {file : Text}
    (named : unit.source = .file file) : ∃ contents, tree.read file = .ok contents := by
  obtain ⟨place, other, located, source, ⟨entry, listed, directory, plain, ends, rfl⟩ | ⟨plain, ends, rfl⟩⟩ :=
    unit_cases resolved member
  · obtain rfl := Source.file.inj (named.symm.trans source)
    exact linkless.read_member sound located directory listed plain (proper_source.name ends)
  · obtain rfl := Source.file.inj (named.symm.trans source)
    obtain ⟨parent, name, -, -, there⟩ := linkless.resolve_suffix proper_source ends located
    obtain ⟨node, found⟩ := Option.ne_none_iff_exists'.mp (there rfl)
    rcases linkless.node found with rfl | ⟨contents, rfl⟩
    · rw [Tree.isDirectory, found] at plain
      cases plain
    · refine ⟨contents, Tree.read_ok.mpr ⟨_, located, ?_⟩⟩
      rw [Tree.contents?, found]

end Linkless

/-- The inputs of a directory with two sources. -/
theorem resolve_two {tree : Tree} (inspected : tree.inspect "Dir" = .ok [Text.ofString "Dir"])
    (directory : tree.isDirectory [Text.ofString "Dir"] = true) (here : tree.herePath = "/")
    (listed : (tree.entries [Text.ofString "Dir"]).filter Inputs.isSource = [⟨"A.vm", false⟩, ⟨"B.vm", false⟩]) :
    Inputs.resolve tree "Dir" =
      .ok { units := [⟨"A", .file "Dir/A.vm"⟩, ⟨"B", .file "Dir/B.vm"⟩], output := "Dir/Dir.asm" } := by
  have output : Inputs.directoryOutput "/" "Dir" = "Dir/Dir.asm" := by decide +kernel
  have units : Inputs.unitsOf "Dir" (tree.entries [Text.ofString "Dir"]) = [⟨"A", .file "Dir/A.vm"⟩, ⟨"B", .file "Dir/B.vm"⟩] := by
    rw [Inputs.unitsOf, listed]
    exact List.mergeSort_of_pairwise (by decide +kernel)
  rw [Inputs.resolve, inspected]
  dsimp only
  rw [if_pos directory, Inputs.ofDirectory, units, here, output]

end HackToolchain.Build
