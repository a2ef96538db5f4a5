import HackToolchain.Lint
import HackToolchain.Proofs.Machine.Load

/-!
What a check finds. It has an issue for a label exactly when one is declared twice, and one for a jump
target exactly where an instruction loads a symbol without a meaning and the very next entry jumps.
-/

namespace HackToolchain.Lint

open Assembly

def labels (instructions : List Instruction) : List Text := instructions.filterMap (·.operation.label?)

/-- A check has an issue about a jump on a line to a symbol that is undefined. -/
def Reports (instructions : List Instruction) (symbol : Text) (line : Int) : Prop :=
  ∃ issue ∈ check instructions, issue.kind = Issue.undefinedKind ∧ issue.symbol = symbol ∧ issue.line = line

theorem duplicates_code {i : Instruction} (code : i.operation.label? = none) (rest : List Instruction)
    (declared : Bindings Int) : duplicates (i :: rest) declared = duplicates rest declared := by
  obtain ⟨operation, line, text⟩ := i
  cases operation with
  | label symbol => cases code
  | _ => rfl

section Declared

variable {i : Instruction} {name : Text} (declares : i.operation = .label name) {declared : Bindings Int}

include declares

theorem duplicates_again {first : Int} (known : declared.lookup name = some first) (rest : List Instruction) :
    duplicates (i :: rest) declared =
      ({ finding := .duplicate first, symbol := name, line := i.line } :: (duplicates rest declared).1,
        (duplicates rest declared).2) := by
  simp only [duplicates, declares, known]

theorem duplicates_fresh (fresh : declared.lookup name = none) (rest : List Instruction) :
    duplicates (i :: rest) declared = duplicates rest (declared ++ [(name, i.line)]) := by
  simp only [duplicates, declares, fresh]

end Declared

/-- All labels are remembered. -/
theorem duplicates_declared {instructions : List Instruction} {declared : Bindings Int} {symbol : Text} :
    symbol ∈ (duplicates instructions declared).2.map Prod.fst ↔
      symbol ∈ declared.map Prod.fst ∨ symbol ∈ labels instructions := by
  induction instructions generalizing declared with
  | nil => simp [duplicates, labels]
  | cons i rest ih =>
    cases known : i.operation.label? with
    | none =>
      rw [duplicates_code known, ih]
      simp [labels, known]
    | some name =>
      have declares := Operation.label?_eq_some.mp known
      have shape : labels (i :: rest) = name :: labels rest := List.filterMap_cons_some known
      rw [shape, List.mem_cons]
      cases found : declared.lookup name with
      | some first =>
        -- A label declared before adds no name, and its name was remembered then.
        have old : name ∈ declared.map Prod.fst := lookup_isSome.mp (by simp [found])
        rw [duplicates_again declares found, ih]
        constructor
        · exact Or.imp_right .inr
        · rintro (member | rfl | member)
          · exact .inl member
          · exact .inl old
          · exact .inr member
      | none =>
        rw [duplicates_fresh declares found, ih]
        simp [or_assoc]

theorem duplicates_eq_nil {instructions : List Instruction} {declared : Bindings Int}
    (distinct : (declared.map Prod.fst).Nodup) :
    (duplicates instructions declared).1 = [] ↔ (declared.map Prod.fst ++ labels instructions).Nodup := by
  induction instructions generalizing declared with
  | nil => simpa [duplicates, labels] using distinct
  | cons i rest ih =>
    cases known : i.operation.label? with
    | none =>
      rw [duplicates_code known, ih distinct]
      simp [labels, known]
    | some name =>
      have declares := Operation.label?_eq_some.mp known
      have shape : labels (i :: rest) = name :: labels rest := List.filterMap_cons_some known
      rw [shape]
      cases found : declared.lookup name with
      | some first =>
        have old : name ∈ declared.map Prod.fst := lookup_isSome.mp (by simp [found])
        rw [duplicates_again declares found]
        simp only [List.cons_ne_nil, false_iff]
        intro distinct
        exact (List.nodup_append.mp distinct).2.2 name old name List.mem_cons_self rfl
      | none =>
        rw [duplicates_fresh declares found, ih (nodup_concat distinct found)]
        simp

theorem duplicates_kind {instructions : List Instruction} {declared : Bindings Int} {issue : Issue}
    (member : issue ∈ (duplicates instructions declared).1) : issue.kind = Issue.duplicateKind := by
  induction instructions generalizing declared with
  | nil => cases member
  | cons i rest ih =>
    cases known : i.operation.label? with
    | none => exact ih (duplicates_code known rest declared ▸ member)
    | some name =>
      have declares := Operation.label?_eq_some.mp known
      cases found : declared.lookup name with
      | some first =>
        rw [duplicates_again declares found] at member
        rcases List.mem_cons.mp member with rfl | later
        · rfl
        · exact ih later
      | none => exact ih (duplicates_fresh declares found rest ▸ member)

/-! ### Jump targets -/

theorem isKnown_iff {declared : Bindings Int} {symbol : Text} :
    isKnown declared symbol = true ↔ Known (declared.map Prod.fst) symbol := by
  simp only [isKnown, Bool.or_eq_true, Known, lookup_isSome, or_assoc]

theorem undefined?_eq_some {declared : Bindings Int} {i next : Instruction} {issue : Issue} :
    undefined? declared i next = some issue ↔
      ∃ symbol value dest comp jump, i.operation = .address symbol value ∧ next.operation = .compute dest comp jump ∧
        jump ≠ [] ∧ ¬ Known (declared.map Prod.fst) symbol ∧ issue = { finding := .undefined jump, symbol, line := i.line } := by
  unfold undefined?
  constructor
  · intro found
    split at found
    · rename_i symbol value dest comp jump loads jumps
      split at found
      · cases found
      · rename_i noted
        obtain ⟨some, unknown⟩ := not_or.mp noted
        exact ⟨symbol, value, dest, comp, jump, loads, jumps, some, fun known => unknown (isKnown_iff.mpr known),
          (Option.some.inj found).symm⟩
    · cases found
  · rintro ⟨symbol, value, dest, comp, jump, loads, jumps, some, unknown, rfl⟩
    rw [loads, jumps]
    exact if_neg (not_or.mpr ⟨some, fun known => unknown (isKnown_iff.mp known)⟩)

theorem mem_undefineds {declared : Bindings Int} {instructions : List Instruction} {issue : Issue} :
    issue ∈ undefineds declared instructions ↔
      ∃ front i next back, instructions = front ++ i :: next :: back ∧ undefined? declared i next = some issue := by
  fun_induction undefineds declared instructions with
  | case1 i next rest ih =>
    rw [List.mem_append, Option.mem_toList, ih]
    constructor
    · rintro (here | ⟨front, j, after, back, split, found⟩)
      · exact ⟨[], i, next, rest, rfl, here⟩
      · exact ⟨i :: front, j, after, back, by rw [split]; rfl, found⟩
    · rintro ⟨front, j, after, back, split, found⟩
      cases front with
      | nil =>
        obtain ⟨rfl, rfl, rfl⟩ : i = j ∧ next = after ∧ rest = back := by simpa using split
        exact .inl found
      | cons first front => exact .inr ⟨front, j, after, back, (List.cons.inj split).2, found⟩
  | case2 instructions short =>
    simp only [List.not_mem_nil, false_iff]
    rintro ⟨front, i, next, back, rfl, -⟩
    cases front with
    | nil => exact short i next back rfl
    | cons first front => cases front <;> exact short _ _ _ rfl

theorem mem_check {instructions : List Instruction} {issue : Issue} :
    issue ∈ check instructions ↔ issue ∈ (duplicates instructions []).1 ∨
      issue ∈ undefineds (duplicates instructions []).2 instructions := by
  simp only [check, List.mem_mergeSort, List.mem_append]

/-- Targets are looked up behind the whole pass over the labels, so that later ones count as well. -/
theorem known_declared {instructions : List Instruction} {name : Text} :
    Known ((duplicates instructions []).2.map Prod.fst) name ↔ Known (labels instructions) name := by
  simp [Known, duplicates_declared]

/-- An undefined target is reported where an instruction loads a symbol without a meaning and the next
entry, be it a label or an instruction, is a jump. -/
theorem reports_iff {instructions : List Instruction} {symbol : Text} {line : Int} :
    Reports instructions symbol line ↔
      ¬ Known (labels instructions) symbol ∧ ∃ front i next back value dest comp jump,
        instructions = front ++ i :: next :: back ∧ i.operation = .address symbol value ∧ i.line = line ∧
          next.operation = .compute dest comp jump ∧ jump ≠ [] := by
  constructor
  · rintro ⟨issue, member, kind, rfl, rfl⟩
    rcases mem_check.mp member with duplicate | undefined
    · rw [duplicates_kind duplicate] at kind
      exact absurd kind (by decide)
    · obtain ⟨front, i, next, back, split, found⟩ := mem_undefineds.mp undefined
      obtain ⟨symbol, value, dest, comp, jump, loads, jumps, some, unknown, rfl⟩ := undefined?_eq_some.mp found
      exact ⟨fun known => unknown (known_declared.mpr known), front, i, next, back, value, dest, comp, jump, split,
        loads, rfl, jumps, some⟩
  · rintro ⟨unknown, front, i, next, back, value, dest, comp, jump, split, loads, rfl, jumps, some⟩
    refine ⟨{ finding := .undefined jump, symbol, line := i.line }, mem_check.mpr (.inr ?_), rfl, rfl, rfl⟩
    refine mem_undefineds.mpr ⟨front, i, next, back, split, undefined?_eq_some.mpr ?_⟩
    exact ⟨symbol, value, dest, comp, jump, loads, jumps, some, fun known => unknown (known_declared.mp known), rfl⟩

theorem check_eq_nil {instructions : List Instruction} :
    check instructions = [] ↔ (labels instructions).Nodup ∧ ∀ symbol line, ¬ Reports instructions symbol line := by
  have clean : (duplicates instructions []).1 = [] ↔ (labels instructions).Nodup := by
    rw [duplicates_eq_nil (by simp)]
    rfl
  rw [← clean]
  constructor
  · intro nothing
    constructor
    · apply List.eq_nil_iff_forall_not_mem.mpr
      intro issue member
      have found := mem_check.mpr (.inl member)
      rw [nothing] at found
      cases found
    · rintro symbol line ⟨issue, member, -⟩
      rw [nothing] at member
      cases member
  · rintro ⟨distinct, silent⟩
    apply List.eq_nil_iff_forall_not_mem.mpr
    intro issue member
    rcases mem_check.mp member with duplicate | undefined
    · rw [distinct] at duplicate
      cases duplicate
    · obtain ⟨front, i, next, back, -, found⟩ := mem_undefineds.mp undefined
      obtain ⟨symbol, value, dest, comp, jump, -, -, -, -, rfl⟩ := undefined?_eq_some.mp found
      exact silent _ _ ⟨_, member, rfl, rfl, rfl⟩

end HackToolchain.Lint
