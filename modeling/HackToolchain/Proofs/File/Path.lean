import HackToolchain.File.Path
import HackToolchain.Proofs.Source.Lines
import Mathlib.Data.List.Basic
import Mathlib.Data.List.TakeDrop
import Mathlib.Data.List.TakeWhile

/-!
Names and endings of paths. Cleaning keeps names that lead into a directory or out of it. An ending without
slashes belongs to the last name of a path, and neither cleaning nor joining takes it away.
-/

namespace HackToolchain

theorem Text.dropEnding_append (stem ending : Text) : Text.dropEnding ending (stem ++ ending) = stem := by
  rw [dropEnding, if_pos (List.isSuffixOf_iff_suffix.mpr (List.suffix_append ..))]
  simp

namespace Path

/-- A name that leads into a directory: neither empty nor made of one dot or two. -/
def IsName (name : Text) : Prop := ¬ (name = [] ∨ name = ".") ∧ name ≠ ".."

/-- An ending that makes a name a proper one: no slash is in it, and neither one dot nor two end in it. -/
structure Proper (ending : Text) : Prop where
  slash : slash ∉ ending
  nonempty : ending ≠ []
  dot : ¬ ending <:+ Text.ofString "."
  dots : ¬ ending <:+ Text.ofString ".."

variable {ending : Text}

theorem Proper.name (proper : Proper ending) {name : Text} (ends : ending <:+ name) : IsName name := by
  refine ⟨?_, ?_⟩
  · rintro (rfl | rfl)
    · exact proper.nonempty (List.suffix_nil.mp ends)
    · exact proper.dot ends
  · rintro rfl
    exact proper.dots ends

theorem names_append (path : Text) {more : Text} (free : slash ∉ more) :
    ∃ front name, names path = front ++ [name] ∧ names (path ++ more) = front ++ [name ++ more] := by
  unfold names
  induction path with
  | nil => exact ⟨[], [], rfl, Text.split_of_not_mem free⟩
  | cons b path ih =>
    obtain ⟨front, name, before, after⟩ := ih
    rw [List.cons_append, Text.split_cons, Text.split_cons, before, after]
    by_cases cut : b = slash
    · rw [if_pos cut, if_pos cut]
      exact ⟨[] :: front, name, rfl, rfl⟩
    · rw [if_neg cut, if_neg cut]
      cases front with
      | nil => exact ⟨[], b :: name, rfl, rfl⟩
      | cons first front => exact ⟨(b :: first) :: front, name, rfl, rfl⟩

theorem names_suffix {path : Text} (proper : Proper ending) (ends : ending <:+ path) :
    ∃ front name, names path = front ++ [name] ∧ ending <:+ name := by
  obtain ⟨path, rfl⟩ := ends
  obtain ⟨front, name, -, split⟩ := names_append path proper.slash
  exact ⟨front, name ++ ending, split, List.suffix_append name ending⟩

theorem suffix_join {names : List Text} {name : Text} (ends : ending <:+ name) :
    ending <:+ Text.join [slash] (names ++ [name]) := by
  induction names with
  | nil => simpa [Text.join] using ends
  | cons first names ih =>
    obtain ⟨next, rest, shape⟩ := List.exists_cons_of_ne_nil (List.append_ne_nil_of_right_ne_nil names (List.cons_ne_nil name []))
    have joined : Text.join [slash] (first :: names ++ [name]) = (first ++ [slash]) ++ Text.join [slash] (names ++ [name]) := by
      rw [List.cons_append, shape]
      simp [Text.join]
    rw [joined]
    exact ih.trans (List.suffix_append _ _)

theorem cleanStep_name (rooted : Bool) (kept : List Text) {name : Text} (proper : IsName name) :
    cleanStep rooted kept name = name :: kept := by
  unfold cleanStep
  rw [if_neg proper.1, if_neg proper.2]

/-- The names of a path that cleaning keeps. -/
def kept (path : Text) : List Text := ((names path).foldl (cleanStep (isAbsolute path)) []).reverse

/-- A name as it is kept: it leads into a directory or out of one. -/
def IsKept (name : Text) : Prop := (IsName name ∨ name = "..") ∧ slash ∉ name

theorem IsKept.nonempty {name : Text} (kept : IsKept name) : name ≠ [] := by
  rintro rfl
  rcases kept.1 with proper | up
  · exact proper.1 (.inl rfl)
  · cases up

theorem cleanStep_kept {rooted : Bool} {before : List Text} (kept : ∀ name ∈ before, IsKept name) {name : Text}
    (plain : slash ∉ name) : ∀ other ∈ cleanStep rooted before name, IsKept other := by
  unfold cleanStep
  split
  · exact kept
  · rename_i moves
    split
    · rename_i up
      have dots : IsKept name := ⟨.inr up, plain⟩
      cases before with
      | nil =>
        cases rooted with
        | true => simp
        | false => simpa using dots
      | cons last rest =>
        dsimp only
        split
        · exact List.forall_mem_cons.mpr ⟨dots, kept⟩
        · exact (List.forall_mem_cons.mp kept).2
    · rename_i inside
      exact List.forall_mem_cons.mpr ⟨⟨.inl ⟨moves, inside⟩, plain⟩, kept⟩

theorem isKept_of_mem {path name : Text} (member : name ∈ kept path) : IsKept name := by
  have fold (rooted : Bool) (rest before : List Text) (plain : ∀ other ∈ rest, slash ∉ other)
      (sound : ∀ other ∈ before, IsKept other) : ∀ other ∈ rest.foldl (cleanStep rooted) before, IsKept other := by
    induction rest generalizing before with
    | nil => exact sound
    | cons first rest ih =>
      obtain ⟨here, later⟩ := List.forall_mem_cons.mp plain
      exact ih _ later (cleanStep_kept sound here)
  apply fold _ (names path) [] (fun other among => Text.split_free among) (by simp)
  exact List.mem_reverse.mp member

theorem head?_join {first : Text} (nonempty : first ≠ []) (rest : List Text) :
    (Text.join [slash] (first :: rest)).head? = first.head? := by
  obtain ⟨b, bytes, rfl⟩ := List.exists_cons_of_ne_nil nonempty
  cases rest <;> simp [Text.join]

/-- A cleaned path is made of the names that are kept, if there are any, and starts where the path did. -/
theorem names_clean {path : Text} (some : kept path ≠ []) :
    clean path ≠ [] ∧ isAbsolute (clean path) = isAbsolute path ∧
      names (clean path) = (if isAbsolute path then [[]] else []) ++ kept path := by
  obtain ⟨first, rest, shape⟩ := List.exists_cons_of_ne_nil some
  have sound : ∀ name ∈ kept path, IsKept name := fun name => isKept_of_mem
  have body : names (Text.join [slash] (kept path)) = kept path := by
    have whole : ∀ name ∈ kept path, Text.split slash name = [name] := fun name member =>
      Text.split_of_not_mem (sound name member).2
    rw [names, Text.split_join slash some, List.flatMap_congr whole, List.flatMap_singleton']
  have leads := sound first (shape ▸ List.mem_cons_self)
  have head := head?_join leads.nonempty rest
  rw [← shape] at head
  have start : (Text.join [slash] (kept path)).head? ≠ .some slash := by
    rw [head]
    intro same
    exact leads.2 (List.mem_of_mem_head? same)
  have cleaned : clean path = if isAbsolute path then slash :: Text.join [slash] (kept path)
      else if Text.join [slash] (kept path) = [] then "." else Text.join [slash] (kept path) := rfl
  rw [cleaned]
  cases isAbsolute path with
  | true =>
    refine ⟨by simp, rfl, ?_⟩
    have cut := Text.split_append slash [] (Text.join [slash] (kept path))
    exact cut.trans (congrArg ([] :: ·) body)
  | false =>
    have nonempty : Text.join [slash] (kept path) ≠ [] := by
      intro empty
      rw [empty] at head
      exact leads.nonempty (List.head?_eq_none_iff.mp head.symm)
    simp only [Bool.false_eq_true, if_false, if_neg nonempty, List.nil_append]
    exact ⟨nonempty, by simpa [isAbsolute] using start, body⟩

theorem suffix_clean {path : Text} (proper : Proper ending) (ends : ending <:+ path) : ending <:+ clean path := by
  obtain ⟨front, name, split, last⟩ := names_suffix proper ends
  have kept : ((names path).foldl (cleanStep (isAbsolute path)) []).reverse =
      (front.foldl (cleanStep (isAbsolute path)) []).reverse ++ [name] := by
    rw [split, List.foldl_append, List.foldl_cons, List.foldl_nil, cleanStep_name _ _ (proper.name last), List.reverse_cons]
  have body : ending <:+ Text.join [slash] ((names path).foldl (cleanStep (isAbsolute path)) []).reverse := by
    rw [kept]
    exact suffix_join last
  unfold clean
  dsimp only
  split
  · exact body.trans (List.suffix_cons _ _)
  · split
    · rename_i empty
      rw [empty] at body
      exact (proper.nonempty (List.suffix_nil.mp body)).elim
    · exact body

theorem suffix_joined {path more : Text} (proper : Proper ending) (ends : ending <:+ more) : ending <:+ join path more := by
  unfold join
  split
  · split
    · rename_i empty
      rw [empty] at ends
      exact ends
    · exact suffix_clean proper ends
  · apply suffix_clean proper
    exact ends.trans ((List.suffix_cons slash more).trans (List.suffix_append path _))

theorem extension_suffix (path : Text) : extension path <:+ path := by
  unfold extension
  rw [List.span_eq_takeWhile_dropWhile]
  have whole := List.takeWhile_append_dropWhile (p := fun b => decide (b ≠ 46)) (l := path.reverse.takeWhile (· ≠ slash))
  have last : path.reverse.takeWhile (· ≠ slash) <+: path.reverse := List.takeWhile_prefix _
  cases rest : (path.reverse.takeWhile (· ≠ slash)).dropWhile (· ≠ 46) with
  | nil => exact List.nil_suffix
  | cons dot others =>
    rw [rest] at whole
    have front : (path.reverse.takeWhile (· ≠ slash)).takeWhile (· ≠ 46) ++ [dot] <+: path.reverse := by
      refine List.IsPrefix.trans ⟨others, ?_⟩ last
      simpa using whole
    simpa using List.reverse_suffix.mpr front

theorem base_name {name : Text} (plain : slash ∉ name) (nonempty : name ≠ []) : base name = name := by
  unfold base names
  rw [Text.split_of_not_mem plain]
  simp [nonempty]

/-- An ending with one dot, in front, is the extension of a name exactly if the name ends in it. -/
theorem extension_iff {name ending : Text} (plain : slash ∉ name) (dotless : 46 ∉ ending) :
    extension name = 46 :: ending ↔ ∃ stem, name = stem ++ 46 :: ending := by
  constructor
  · intro same
    obtain ⟨stem, whole⟩ := same ▸ extension_suffix name
    exact ⟨stem, whole.symm⟩
  · rintro ⟨stem, rfl⟩
    have last : (stem ++ 46 :: ending).reverse.takeWhile (· ≠ slash) = ending.reverse ++ 46 :: stem.reverse := by
      have whole : (stem ++ 46 :: ending).reverse = ending.reverse ++ 46 :: stem.reverse := by simp
      rw [← whole, List.takeWhile_eq_self_iff]
      intro b member
      apply decide_eq_true
      rintro rfl
      exact plain (List.mem_reverse.mp member)
    have before : ∀ b ∈ ending.reverse, decide (b ≠ 46) = true := by
      intro b member
      apply decide_eq_true
      rintro rfl
      exact dotless (List.mem_reverse.mp member)
    unfold extension
    rw [last, List.span_eq_takeWhile_dropWhile, List.takeWhile_append_of_pos before, List.dropWhile_append_of_pos before]
    simp

end Path

end HackToolchain
