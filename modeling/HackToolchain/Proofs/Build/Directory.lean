import HackToolchain.Proofs.Build.Sources
import Mathlib.Data.List.Nodup

/-!
The units of a directory. They are ordered by names without the ending of a source, which is not the order of the
names in the directory. Since the ending is the same for all sources no two units share a name, so that neither the
order in which a directory is listed nor the way of sorting makes a difference.
-/

namespace HackToolchain.Build

/-- The members of a directory, listed in any order: names without slashes, and none of them twice. -/
structure Listing (entries : List Entry) : Prop where
  plain : ∀ e ∈ entries, Path.slash ∉ e.name
  distinct : (entries.map (·.name)).Nodup

namespace Inputs

/-- The member of a directory that is the source file with a stem. -/
def sourceOf (stem : Text) : Entry := { name := stem ++ sourceEnding, isDirectory := false }

/-- The unit of that source file. -/
def unitFor (directory stem : Text) : SourceUnit :=
  { name := stem, source := .file (Path.join directory (stem ++ sourceEnding)) }

theorem isSource_iff {e : Entry} (plain : Path.slash ∉ e.name) : isSource e = true ↔ ∃ stem, e = sourceOf stem := by
  have dotted := @Path.extension_iff e.name _ plain (by decide : 46 ∉ Text.ofString "vm")
  simp only [isSource, Bool.and_eq_true, Bool.not_eq_true', beq_iff_eq]
  show _ ∧ Path.extension e.name = 46 :: Text.ofString "vm" ↔ _
  rw [dotted]
  constructor
  · rintro ⟨file, stem, named⟩
    refine ⟨stem, ?_⟩
    cases e
    cases file
    cases named
    rfl
  · rintro ⟨stem, rfl⟩
    exact ⟨rfl, stem, rfl⟩

theorem unitOf_sourceOf (directory : Text) {stem : Text} (plain : Path.slash ∉ (sourceOf stem).name) :
    unitOf directory (sourceOf stem) = unitFor directory stem := by
  have nonempty : (sourceOf stem).name ≠ [] := List.append_ne_nil_of_right_ne_nil _ (by decide)
  have name : unitName (sourceOf stem).name = stem := by
    rw [unitName, Path.base_name plain nonempty]
    exact Text.dropEnding_append ..
  rw [unitOf, name]
  rfl

variable (directory : Text)

theorem unitsOf_ordered (entries : List Entry) : (unitsOf directory entries).Pairwise (fun x y => x.name ≤ y.name) := by
  have ordered : (unitsOf directory entries).Pairwise (fun x y => decide (x.name ≤ y.name) = true) := by
    apply List.pairwise_mergeSort
    · intro x y z first second
      exact decide_eq_true (Std.le_trans (of_decide_eq_true first) (of_decide_eq_true second))
    · intro x y
      simpa using Std.le_total
  exact ordered.imp of_decide_eq_true

theorem unitsOf_perm (entries : List Entry) :
    (unitsOf directory entries).Perm ((entries.filter isSource).map (unitOf directory)) := List.mergeSort_perm ..

variable {entries : List Entry} (listing : Listing entries)

include listing

theorem mem_sources {e : Entry} : e ∈ entries.filter isSource ↔ ∃ stem, sourceOf stem ∈ entries ∧ e = sourceOf stem := by
  rw [List.mem_filter]
  constructor
  · rintro ⟨member, source⟩
    obtain ⟨stem, rfl⟩ := (isSource_iff (listing.plain e member)).mp source
    exact ⟨stem, member, rfl⟩
  · rintro ⟨stem, member, rfl⟩
    exact ⟨member, (isSource_iff (listing.plain _ member)).mpr ⟨stem, rfl⟩⟩

theorem mem_unitsOf {unit : SourceUnit} :
    unit ∈ unitsOf directory entries ↔ ∃ stem, sourceOf stem ∈ entries ∧ unit = unitFor directory stem := by
  rw [(unitsOf_perm directory entries).mem_iff, List.mem_map]
  constructor
  · rintro ⟨e, kept, rfl⟩
    obtain ⟨stem, member, rfl⟩ := (mem_sources listing).mp kept
    exact ⟨stem, member, unitOf_sourceOf directory (listing.plain _ member)⟩
  · rintro ⟨stem, member, rfl⟩
    exact ⟨_, (mem_sources listing).mpr ⟨stem, member, rfl⟩, unitOf_sourceOf directory (listing.plain _ member)⟩

theorem unitsOf_names : ((unitsOf directory entries).map (·.name)).Nodup := by
  apply ((unitsOf_perm directory entries).map _).nodup_iff.mpr
  rw [List.map_map]
  -- The name of a unit is the stem of its source, and sources with one stem are the same.
  have named {stem : Text} (member : sourceOf stem ∈ entries) : (unitOf directory (sourceOf stem)).name = stem := by
    rw [unitOf_sourceOf directory (listing.plain _ member)]
    rfl
  apply List.Nodup.map_on
  · intro e kept e' kept' same
    obtain ⟨stem, member, rfl⟩ := (mem_sources listing).mp kept
    obtain ⟨stem', member', rfl⟩ := (mem_sources listing).mp kept'
    exact congrArg sourceOf ((named member).symm.trans (same.trans (named member')))
  · exact (List.Nodup.of_map _ listing.distinct).filter _

theorem unitsOf_increasing : (unitsOf directory entries).Pairwise (fun x y => x.name < y.name) := by
  apply ((unitsOf_ordered directory entries).and (List.pairwise_map.mp (unitsOf_names directory listing))).imp
  intro x y both
  exact Std.lt_of_le_of_ne both.1 both.2

/-- Whatever sorts the units by name gives the same list. -/
theorem unitsOf_unique {units : List SourceUnit} (perm : units.Perm (unitsOf directory entries))
    (ordered : units.Pairwise (fun x y => x.name ≤ y.name)) : units = unitsOf directory entries := by
  apply List.Perm.eq_of_pairwise ?_ ordered (unitsOf_ordered directory entries) perm
  intro x y member member' before behind
  exact List.inj_on_of_nodup_map (unitsOf_names directory listing) (perm.mem_iff.mp member) member' (Std.le_antisymm before behind)

theorem unitsOf_congr {other : List Entry} (perm : other.Perm entries) : unitsOf directory other = unitsOf directory entries := by
  apply unitsOf_unique directory listing ?_ (unitsOf_ordered directory other)
  have kept := (perm.filter isSource).map (unitOf directory)
  exact (unitsOf_perm directory other).trans (kept.trans (unitsOf_perm directory entries).symm)

end Inputs

open Inputs

section Directory

variable (here directory : Text) {entries : List Entry} (listing : Listing entries)

include listing

theorem ofDirectory_congr {other : List Entry} (perm : other.Perm entries) :
    ofDirectory here directory other = ofDirectory here directory entries := by
  unfold ofDirectory
  rw [unitsOf_congr directory listing perm]

theorem ofDirectory_none (none : ∀ stem, sourceOf stem ∉ entries) :
    ofDirectory here directory entries = .error (.noSources directory) := by
  have empty : unitsOf directory entries = [] := by
    apply List.eq_nil_iff_forall_not_mem.mpr
    intro unit member
    obtain ⟨stem, listed, -⟩ := (mem_unitsOf directory listing).mp member
    exact none stem listed
  rw [ofDirectory, empty]

theorem ofDirectory_some {stem : Text} (listed : sourceOf stem ∈ entries) :
    ofDirectory here directory entries =
      .ok { units := unitsOf directory entries, output := directoryOutput here directory } := by
  have member := (mem_unitsOf directory listing).mpr ⟨stem, listed, rfl⟩
  unfold ofDirectory
  split
  · rename_i empty
    rw [empty] at member
    cases member
  · rfl

end Directory

/-- A directory stands for its source files, each once and by increasing names, however it is listed and whatever sorts
them; it is refused exactly if it has none, and the output is none of them. -/
theorem directory_resolution (here directory : Text) {entries : List Entry} (listing : Listing entries) :
    (∀ e ∈ entries, e.isDirectory = false ∧ Path.extension e.name = sourceEnding ↔ ∃ stem, e = sourceOf stem) ∧
      (∀ tree place, Tree.inspect tree directory = .ok place → tree.isDirectory place = true → tree.herePath = here →
        (tree.entries place).Perm entries → resolve tree directory = ofDirectory here directory entries) ∧
      (∀ other : List Entry, other.Perm entries → ofDirectory here directory other = ofDirectory here directory entries) ∧
      (ofDirectory here directory entries = .error (.noSources directory) ↔ ∀ stem, sourceOf stem ∉ entries) ∧
      ((∃ stem, sourceOf stem ∈ entries) → ∃ inputs, ofDirectory here directory entries = .ok inputs ∧
        (∀ unit, unit ∈ inputs.units ↔ ∃ stem, sourceOf stem ∈ entries ∧ unit = unitFor directory stem) ∧
        inputs.units.Pairwise (fun x y => x.name < y.name) ∧ (inputs.units.map (·.name)).Nodup ∧
        (∀ units : List SourceUnit, units.Perm inputs.units → units.Pairwise (fun x y => x.name ≤ y.name) → units = inputs.units) ∧
        ∀ unit ∈ inputs.units, unit.source ≠ .file inputs.output) := by
  refine ⟨?_, ?_, ?_, ⟨?_, ofDirectory_none here directory listing⟩, ?_⟩
  · intro e member
    rw [← isSource_iff (listing.plain e member)]
    simp [isSource]
  · rintro tree place inspected inside rfl perm
    rw [resolve, inspected]
    dsimp only
    rw [if_pos inside]
    exact ofDirectory_congr _ directory listing perm
  · intro other perm
    exact ofDirectory_congr here directory listing perm
  · intro refused stem listed
    rw [ofDirectory_some here directory listing listed] at refused
    cases refused
  · rintro ⟨stem, listed⟩
    refine ⟨_, ofDirectory_some here directory listing listed, ?_, unitsOf_increasing directory listing,
      unitsOf_names directory listing, ?_, ?_⟩
    · intro unit
      exact mem_unitsOf directory listing
    · intro units perm ordered
      exact unitsOf_unique directory listing perm ordered
    · intro unit member same
      obtain ⟨stem, -, rfl⟩ := (mem_unitsOf directory listing).mp member
      have path := Source.file.inj same
      have source : sourceEnding <:+ Path.join directory (stem ++ sourceEnding) :=
        Path.suffix_joined proper_source (List.suffix_append _ _)
      have output : outputEnding <:+ directoryOutput here directory :=
        Path.suffix_joined proper_output (List.suffix_append _ _)
      rw [path] at source
      exact endings_differ source output

/-- Sources whose names are in another order than their units, beside a directory that is named like a source. -/
theorem directory_resolution_shuffled :
    let tree : Tree :=
      { nodes := [(["Dir", "a.b.vm"], .file []), (["Dir", "a.vm"], .file []), (["Dir"], .directory),
          (["Dir", "lib.vm"], .directory), (["Dir", "a-b.vm"], .file []), (["Dir", "a.asm"], .file [])]
        here := [] }
    Listing (tree.entries ["Dir"]) ∧
      resolve tree "Dir" =
        .ok
          { units := [⟨"a", .file "Dir/a.vm"⟩, ⟨"a-b", .file "Dir/a-b.vm"⟩, ⟨"a.b", .file "Dir/a.b.vm"⟩]
            output := "Dir/Dir.asm" } := by
  intro tree
  have listing : Listing (tree.entries [Text.ofString "Dir"]) := ⟨by decide +kernel, by decide +kernel⟩
  let ordered : List Entry := [⟨"a.vm", false⟩, ⟨"a-b.vm", false⟩, ⟨"a.b.vm", false⟩, ⟨"lib.vm", true⟩, ⟨"a.asm", false⟩]
  have units : unitsOf "Dir" ordered = [⟨"a", .file "Dir/a.vm"⟩, ⟨"a-b", .file "Dir/a-b.vm"⟩, ⟨"a.b", .file "Dir/a.b.vm"⟩] := by
    have listed : (ordered.filter isSource).map (unitOf "Dir") =
        [⟨"a", .file "Dir/a.vm"⟩, ⟨"a-b", .file "Dir/a-b.vm"⟩, ⟨"a.b", .file "Dir/a.b.vm"⟩] := by decide +kernel
    rw [unitsOf, listed]
    exact List.mergeSort_of_pairwise (by decide)
  have output : directoryOutput tree.herePath "Dir" = "Dir/Dir.asm" := by decide +kernel
  obtain ⟨-, resolved, same, -⟩ := directory_resolution tree.herePath "Dir" listing
  refine ⟨listing, ?_⟩
  rw [resolved tree [Text.ofString "Dir"] (by decide +kernel) (by decide +kernel) rfl (.refl _), ← same ordered (by decide +kernel),
    ofDirectory, units, output]

end HackToolchain.Build
