import HackToolchain.Proofs.Build.ByLine
import HackToolchain.Proofs.Emission.Language

/-!
The language that a translation accepts. Each line of each unit is fine or at fault by itself, whatever stands
around it; a translation ends well if all are fine, and otherwise stops at the first that is not.
-/

namespace HackToolchain.Build

open Emission Session Command

def tokens (line : Text) : List Text := line.beforeComment.fields

/-- A line that is written, or passed over. -/
structure Fine (line : Text) : Prop where
  short : line.length < Lines.limit
  admitted : tokens line = [] ∨ Admitted (tokens line)

def report (unit : Text) (number : Nat) (line : Text) : Offence → UnitError EmitError
  | .malformed cause =>
    .unreadable (.malformed { unit, line := number, text := (Lines.dropReturn line).beforeComment.trim, cause })
  | .refused c cause => .refused unit number c cause

/-- A line that stops a unit, with the error that says so. -/
inductive Faulty (unit : Text) (number : Nat) (line : Text) : UnitError EmitError → Prop
  | tooLong (long : Lines.limit ≤ line.length) : Faulty unit number line (.unreadable (.tooLong unit))
  | offence {offence : Offence} (short : line.length < Lines.limit) (offends : Offends (tokens line) offence) :
    Faulty unit number line (report unit number line offence)

theorem fine_or_faulty (unit : Text) (number : Nat) (line : Text) : Fine line ∨ ∃ error, Faulty unit number line error := by
  by_cases long : Lines.limit ≤ line.length
  · exact .inr ⟨_, .tooLong long⟩
  have short : line.length < Lines.limit := by omega
  cases found : tokens line with
  | nil => exact .inl ⟨short, .inl found⟩
  | cons word operands =>
    rcases admitted_or_offends word operands with admitted | ⟨offence, offends⟩
    · exact .inl ⟨short, .inr (found ▸ admitted)⟩
    · exact .inr ⟨_, .offence short (found ▸ offends)⟩

theorem Faulty.cause {unit line : Text} {number : Nat} {error : UnitError EmitError} (faulty : Faulty unit number line error) :
    error.cause? ≠ some .negativeIndex ∧ error.cause? ≠ some .bootstrapOrder := by
  cases faulty with
  | tooLong long => simp [UnitError.cause?]
  | offence short offends =>
    generalize tokens line = found at offends
    cases offends <;> simp [report, UnitError.cause?]

/-! ### One line -/

section Line

variable {s : Session} {unit line : Text} {n done : Nat}

theorem writeLines_fine (ample : Ample s) (fine : Fine line) (rest : List Text) :
    ∃ k t, Ample t ∧ writeLines .session unit n (line :: rest) done s = writeLines .session unit (n + 1) rest k t := by
  have short : ¬ Lines.limit ≤ line.length := Nat.not_le.mpr fine.short
  rw [writeLines, if_neg short]
  cases found : tokens line with
  | nil =>
    rw [Reader.item?_blank found]
    exact ⟨done, s, ample, rfl⟩
  | cons word operands =>
    have admitted : Admitted (word :: operands) := by simpa [found] using fine.admitted
    obtain ⟨c, read, always⟩ := admitted.coded
    obtain ⟨code, coded⟩ := always s.naming
    obtain ⟨t, written, ample', -⟩ := write_ample ample coded
    rw [Reader.item?_read found read]
    dsimp only
    rw [written]
    exact ⟨done + 1, t, ample', rfl⟩

theorem writeLines_faulty {error : UnitError EmitError} (faulty : Faulty unit n line error) (rest : List Text) :
    writeLines .session unit n (line :: rest) done s = (done, some error, s) := by
  cases faulty with
  | tooLong long => rw [writeLines, if_pos long]
  | @offence offence short offends =>
    rw [writeLines, if_neg (Nat.not_le.mpr short)]
    cases found : tokens line with
    | nil =>
      rw [found] at offends
      cases offends
    | cons word operands =>
      rw [found] at offends
      have verdict := offends.found
      cases offence with
      | malformed cause =>
        rw [Reader.item?_malformed found verdict]
        rfl
      | refused c cause =>
        obtain ⟨read, always⟩ := verdict
        rw [Reader.item?_read found read]
        dsimp only
        rw [write_refused (always s.naming)]
        rfl

end Line

/-! ### Lines of a unit -/

section Lines

variable {s : Session} {unit : Text} {n done : Nat}

theorem writeLines_all_fine (ample : Ample s) {lines : List Text} (fine : ∀ line ∈ lines, Fine line) :
    ∃ k t, Ample t ∧ writeLines .session unit n lines done s = (k, none, t) := by
  induction lines generalizing n done s with
  | nil => exact ⟨done, s, ample, rfl⟩
  | cons line rest ih =>
    obtain ⟨here, later⟩ := List.forall_mem_cons.mp fine
    obtain ⟨k, t, ample', step⟩ := @writeLines_fine s unit line n done ample here rest
    rw [step]
    exact ih ample' later

/-- What stops a unit: a line at fault with none in front of it. -/
def FaultyUnit (unit : Text × Text) (error : UnitError EmitError) : Prop :=
  ∃ earlier line later, Lines.raw unit.2 = earlier ++ line :: later ∧ (∀ other ∈ earlier, Fine other) ∧
    Faulty unit.1 (earlier.length + 1) line error

def FineUnit (unit : Text × Text) : Prop := ∀ line ∈ Lines.raw unit.2, Fine line

theorem first_fault (unit : Text) (n : Nat) (lines : List Text) :
    (∀ line ∈ lines, Fine line) ∨ ∃ earlier line later error, lines = earlier ++ line :: later ∧
      (∀ other ∈ earlier, Fine other) ∧ Faulty unit (earlier.length + n) line error := by
  induction lines generalizing n with
  | nil => exact .inl (by simp)
  | cons line rest ih =>
    rcases fine_or_faulty unit n line with fine | ⟨error, faulty⟩
    · rcases ih (n + 1) with all | ⟨earlier, other, later, error, same, before, faulty⟩
      · exact .inl (List.forall_mem_cons.mpr ⟨fine, all⟩)
      · refine .inr ⟨line :: earlier, other, later, error, by rw [same, List.cons_append],
          List.forall_mem_cons.mpr ⟨fine, before⟩, ?_⟩
        rwa [List.length_cons, Nat.add_right_comm]
    · exact .inr ⟨[], line, rest, error, rfl, by simp, by simpa using faulty⟩

theorem fineUnit_or_faultyUnit (unit : Text × Text) : FineUnit unit ∨ ∃ error, FaultyUnit unit error := by
  rcases first_fault unit.1 1 (Lines.raw unit.2) with fine | ⟨earlier, line, later, error, same, before, faulty⟩
  · exact .inl fine
  · exact .inr ⟨error, earlier, line, later, same, before, faulty⟩

theorem writeSource_fine (ample : Ample s) {unit : Text × Text} (fine : FineUnit unit) :
    ∃ k t, Ample t ∧ writeSource .session unit.1 { text := unit.2 } s = (k, none, t) := by
  rw [writeSource_lines]
  exact writeLines_all_fine (s := Emitter.session.setUnit unit.1 s) ⟨ample.free, ample.sound⟩ fine

theorem writeSource_faulty (ample : Ample s) {unit : Text × Text} {error : UnitError EmitError} (faulty : FaultyUnit unit error) :
    ∃ k t, writeSource .session unit.1 { text := unit.2 } s = (k, some error, t) := by
  obtain ⟨earlier, line, later, same, before, faulty⟩ := faulty
  obtain ⟨k, t, -, front⟩ := @writeLines_all_fine (Emitter.session.setUnit unit.1 s) unit.1 1 0
    ⟨ample.free, ample.sound⟩ earlier before
  rw [Nat.add_comm] at faulty
  rw [writeSource_lines, same, writeLines_append, front]
  exact ⟨k, t, writeLines_faulty faulty later⟩

end Lines

/-! ### Units -/

section Units

variable {tree : Tree} {s : Session}

theorem writeTexts_fine (ample : Ample s) {unit : Text × Text} (fine : FineUnit unit) (rest : List (Text × Text)) :
    ∃ t, Ample t ∧ (writeTexts tree (unit :: rest) s).2.1 = (writeTexts tree rest t).2.1 := by
  obtain ⟨k, t, ample', written⟩ := writeSource_fine ample fine
  refine ⟨Emitter.session.note (unitRecord ⟨unit.1, k⟩) t, ⟨ample'.free, ample'.sound⟩, ?_⟩
  rw [writeTexts_written written]

theorem writeTexts_all_fine (ample : Ample s) {units : List (Text × Text)} (fine : ∀ unit ∈ units, FineUnit unit) :
    (writeTexts tree units s).2.1 = none := by
  induction units generalizing s with
  | nil => rfl
  | cons unit rest ih =>
    obtain ⟨here, later⟩ := List.forall_mem_cons.mp fine
    obtain ⟨t, ample', step⟩ := @writeTexts_fine tree s ample unit here rest
    rw [step]
    exact ih ample' later

theorem writeTexts_first_faulty (ample : Ample s) {before after : List (Text × Text)} {unit : Text × Text}
    {error : UnitError EmitError} (fine : ∀ unit ∈ before, FineUnit unit) (faulty : FaultyUnit unit error) :
    (writeTexts tree (before ++ unit :: after) s).2.1 = some error := by
  induction before generalizing s with
  | nil =>
    obtain ⟨k, t, stopped⟩ := writeSource_faulty ample faulty
    rw [List.nil_append, writeTexts_stopped stopped]
  | cons first before ih =>
    obtain ⟨here, later⟩ := List.forall_mem_cons.mp fine
    obtain ⟨t, ample', step⟩ := @writeTexts_fine tree s ample first here (before ++ unit :: after)
    rw [List.cons_append, step]
    exact ih ample' later

theorem first_faultyUnit (units : List (Text × Text)) :
    (∀ unit ∈ units, FineUnit unit) ∨ ∃ before unit after error, units = before ++ unit :: after ∧
      (∀ other ∈ before, FineUnit other) ∧ FaultyUnit unit error := by
  induction units with
  | nil => exact .inl (by simp)
  | cons unit rest ih =>
    rcases fineUnit_or_faultyUnit unit with fine | ⟨error, faulty⟩
    · rcases ih with all | ⟨before, other, after, error, same, front, faulty⟩
      · exact .inl (List.forall_mem_cons.mpr ⟨fine, all⟩)
      · exact .inr ⟨unit :: before, other, after, error, by rw [same, List.cons_append],
          List.forall_mem_cons.mpr ⟨fine, front⟩, faulty⟩
    · exact .inr ⟨[], unit, rest, error, rfl, by simp, faulty⟩

end Units

/-- A translation succeeds if every line of every unit is fine. Otherwise it stops at the first line that is not,
with the error of that line; and the emitter's own checks of indices and of the bootstrap never fail. What is
left of the code of a line without the white space around it is empty only if the line has no token. -/
theorem accepted_language (tree : Tree) (settings : Settings) (units : List (Text × Text)) :
    ((translate tree settings units).2.1 = none ↔ ∀ unit ∈ units, ∀ line ∈ Lines.raw unit.2, Fine line) ∧
      (∀ error, (translate tree settings units).2.1 = some error ↔
        ∃ before unit after, units = before ++ unit :: after ∧ (∀ other ∈ before, ∀ line ∈ Lines.raw other.2, Fine line) ∧
          ∃ earlier line later, Lines.raw unit.2 = earlier ++ line :: later ∧ (∀ other ∈ earlier, Fine other) ∧
            Faulty unit.1 (earlier.length + 1) line error) ∧
      (∀ error, (translate tree settings units).2.1 = some error →
        error.cause? ≠ some .negativeIndex ∧ error.cause? ≠ some .bootstrapOrder) ∧
      ∀ line, let code := (Lines.dropReturn line).beforeComment
        code.trim.fields = tokens line ∧ (code.trim = [] ↔ tokens line = []) := by
  obtain ⟨s, ample, behind⟩ := translate_behind tree settings
  -- Every list of units is fine or has a first fault, so what follows from either decides the other direction.
  have first : ∀ error, (writeTexts tree units s).2.1 = some error ↔
      ∃ before unit after, units = before ++ unit :: after ∧ (∀ other ∈ before, FineUnit other) ∧ FaultyUnit unit error := by
    intro error
    constructor
    · intro found
      rcases first_faultyUnit units with fine | ⟨before, unit, after, other, same, front, faulty⟩
      · rw [writeTexts_all_fine ample fine] at found
        cases found
      · rw [same, writeTexts_first_faulty ample front faulty] at found
        cases found
        exact ⟨before, unit, after, same, front, faulty⟩
    · rintro ⟨before, unit, after, rfl, front, faulty⟩
      exact writeTexts_first_faulty ample front faulty
  rw [behind]
  refine ⟨⟨fun ended => ?_, writeTexts_all_fine ample⟩, first, fun error found => ?_, fun line => ?_⟩
  · rcases first_faultyUnit units with fine | ⟨before, unit, after, error, same, front, faulty⟩
    · exact fine
    · rw [(first error).mpr ⟨before, unit, after, same, front, faulty⟩] at ended
      cases ended
  · obtain ⟨before, unit, after, -, -, earlier, line, later, -, -, faulty⟩ := (first error).mp found
    exact faulty.cause
  · dsimp only
    rw [Text.trim_eq_nil, Text.trim_fields, Text.dropReturn_fields]
    exact ⟨rfl, Iff.rfl⟩

/-- A constant can be pushed, with a comment and a carriage return behind it, but not popped. -/
theorem accepted_language_refused :
    (translate { nodes := [], here := [] } .default
      [("Main", "\n\tpush constant +7 // seven\r\npop constant 7 8\nadd")]).2.1 =
        some (.refused "Main" 3 (.pop "constant" 7) (.unsupportedSegment .pop "constant")) := by
  refine ((accepted_language { nodes := [], here := [] } .default _).2.1 _).mpr ⟨[], _, [], rfl, by simp, ?_⟩
  have empty : Fine [] := ⟨by decide, .inl (by decide)⟩
  have pushed : Fine "\tpush constant +7 // seven\r" := by
    refine ⟨by decide, .inr ?_⟩
    have found : tokens "\tpush constant +7 // seven\r" = (["push", "constant", "+7"] : List Text) := by decide +kernel
    rw [found]
    exact .push (by decide) ⟨7, by decide, by decide, by decide⟩
  have popped : Faulty "Main" 3 "pop constant 7 8" (.refused "Main" 3 (.pop "constant" 7) (.unsupportedSegment .pop "constant")) := by
    refine @Faulty.offence _ _ _ (.refused (.pop "constant" 7) (.unsupportedSegment .pop "constant")) (by decide) ?_
    have found : tokens "pop constant 7 8" = (["pop", "constant", "7", "8"] : List Text) := by decide +kernel
    rw [found]
    exact .pop (by decide) (by decide) (by decide)
  refine ⟨[[], "\tpush constant +7 // seven\r"], "pop constant 7 8", ["add"], by decide +kernel, ?_, popped⟩
  intro line member
  rcases List.mem_cons.mp member with rfl | second
  · exact empty
  · rw [List.mem_singleton.mp second]
    exact pushed

end HackToolchain.Build
