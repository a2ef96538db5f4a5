import HackToolchain.Proofs.Lint.Check
import Mathlib.Data.List.Nodup

/-!
Duplicate labels in a check and in a loader. A check goes on behind a label that was declared before and a loader
stops there; both look for it with tables of their own. What the check finds stands in the order of the lines, so
that its first duplicate is the one at which the loader stops.
-/

namespace HackToolchain.Lint

open Assembly

/-- The first instruction that declares a label. -/
def declaration? (instructions : List Instruction) (symbol : Text) : Option Instruction :=
  instructions.find? fun i => i.operation = .label symbol

/-- The issue of an instruction that declares a label, unless it is the first to do so. -/
def redeclaration? (instructions : List Instruction) (i : Instruction) : Option Issue :=
  i.operation.label?.bind fun symbol =>
    ((declaration? instructions symbol).filter (· ≠ i)).map fun first => { finding := .duplicate first.line, symbol, line := i.line }

/-- What can be found in instructions: a label declared again, and a symbol without a meaning that is loaded for the
jump in the next entry. -/
inductive Finds (instructions : List Instruction) : Issue → Prop
  | duplicate {i : Instruction} {issue : Issue} (member : i ∈ instructions)
    (repeated : redeclaration? instructions i = some issue) : Finds instructions issue
  | undefined {front back : List Instruction} {i next : Instruction} {symbol : Text} {value : Int} {dest comp jump : Text}
    (adjacent : instructions = front ++ i :: next :: back) (loads : i.operation = .address symbol value)
    (computes : next.operation = .compute dest comp jump) (jumps : jump ≠ []) (unknown : ¬ Known (labels instructions) symbol) :
    Finds instructions { finding := .undefined jump, symbol, line := i.line }

theorem redeclaration?_eq_some {instructions : List Instruction} {i : Instruction} {issue : Issue} :
    redeclaration? instructions i = some issue ↔
      ∃ symbol first, i.operation = .label symbol ∧ declaration? instructions symbol = some first ∧ first ≠ i ∧
        issue = { finding := .duplicate first.line, symbol, line := i.line } := by
  unfold redeclaration?
  simp only [Option.bind_eq_some_iff, Operation.label?_eq_some, Option.map_eq_some_iff, Option.filter_eq_some_iff, decide_eq_true_eq]
  constructor
  · rintro ⟨symbol, declares, first, ⟨found, other⟩, rfl⟩
    exact ⟨symbol, first, declares, found, other, rfl⟩
  · rintro ⟨symbol, first, declares, found, other, rfl⟩
    exact ⟨symbol, declares, first, ⟨found, other⟩, rfl⟩

theorem redeclaration?_code {instructions : List Instruction} {i : Instruction} (code : i.operation.label? = none) :
    redeclaration? instructions i = none := by
  rw [redeclaration?, code]
  rfl

theorem declaration?_append (front back : List Instruction) (symbol : Text) :
    declaration? (front ++ back) symbol = (declaration? front symbol).or (declaration? back symbol) := List.find?_append

theorem declaration?_code {i : Instruction} (code : i.operation.label? = none) (symbol : Text) : declaration? [i] symbol = none := by
  apply List.find?_singleton.trans
  rw [if_neg]
  intro declares
  rw [of_decide_eq_true declares] at code
  cases code

theorem declaration?_label {i : Instruction} {name : Text} (declares : i.operation = .label name) (symbol : Text) :
    declaration? [i] symbol = if symbol = name then some i else none := by
  apply List.find?_singleton.trans
  simp [declares, eq_comm]

theorem lookup_concat {α : Type} (bindings : Bindings α) (name symbol : Text) (value : α) :
    (bindings ++ [(name, value)]).lookup symbol = (bindings.lookup symbol).or (if symbol = name then some value else none) := by
  rw [List.lookup_append, List.lookup_cons]
  by_cases same : symbol = name
  · simp [same]
  · have different : (symbol == name) = false := by simpa using same
    simp [same, different]

/-! ### The check -/

/-- A declaration is at fault if there is one in front of it. -/
theorem redeclaration?_at {front back : List Instruction} {i : Instruction} {name : Text}
    (increasing : (front ++ i :: back).Pairwise (fun i j => i.line < j.line)) (declares : i.operation = .label name) :
    redeclaration? (front ++ i :: back) i =
      (declaration? front name).map fun first => { finding := .duplicate first.line, symbol := name, line := i.line } := by
  have earliest : declaration? (front ++ i :: back) name = (declaration? front name).or (some i) := by
    have single : declaration? [i] name = some i := by rw [declaration?_label declares, if_pos rfl]
    rw [declaration?_append, ← List.singleton_append, declaration?_append, single, Option.some_or]
  rw [redeclaration?, declares, Operation.label?, Option.bind_some, earliest]
  cases found : declaration? front name with
  | none => simp
  | some first =>
    have other : first ≠ i := by
      have before := (List.pairwise_append.mp increasing).2.2 first (List.mem_of_find?_eq_some found) i List.mem_cons_self
      rintro rfl
      omega
    simp [Option.filter, other]

/-- A table with the line of the first declaration of every label in front finds the declarations that follow later. -/
theorem duplicates_found {front rest : List Instruction} {declared : Bindings Int}
    (increasing : (front ++ rest).Pairwise (fun i j => i.line < j.line))
    (remembered : ∀ symbol, declared.lookup symbol = (declaration? front symbol).map (·.line)) :
    (duplicates rest declared).1 = rest.filterMap (redeclaration? (front ++ rest)) := by
  induction rest generalizing front declared with
  | nil => rfl
  | cons i rest ih =>
    have shift : front ++ i :: rest = front ++ [i] ++ rest := by simp
    have later := @ih (front ++ [i])
    rw [← shift] at later
    cases known : i.operation.label? with
    | none =>
      rw [duplicates_code known, List.filterMap_cons_none (redeclaration?_code known)]
      apply later increasing
      intro symbol
      rw [remembered, declaration?_append, declaration?_code known, Option.or_none]
    | some name =>
      have declares := Operation.label?_eq_some.mp known
      have here := redeclaration?_at increasing declares
      cases found : declaration? front name with
      | some first =>
        rw [found] at here
        rw [duplicates_again declares (by rw [remembered, found]; rfl), List.filterMap_cons_some here]
        dsimp only
        congr 1
        apply later increasing
        intro symbol
        rw [remembered, declaration?_append, declaration?_label declares]
        split
        · rename_i same
          rw [same, found]
          rfl
        · rw [Option.or_none]
      | none =>
        rw [found] at here
        rw [duplicates_fresh declares (by rw [remembered, found]; rfl), List.filterMap_cons_none here]
        apply later increasing
        intro symbol
        rw [lookup_concat, remembered, declaration?_append, declaration?_label declares]
        cases declaration? front symbol <;> split <;> rfl

theorem duplicates_eq {instructions : List Instruction} (increasing : instructions.Pairwise (fun i j => i.line < j.line)) :
    (duplicates instructions []).1 = instructions.filterMap (redeclaration? instructions) :=
  @duplicates_found [] instructions [] increasing fun _ => rfl

theorem mem_check_iff {instructions : List Instruction} (increasing : instructions.Pairwise (fun i j => i.line < j.line))
    {issue : Issue} : issue ∈ check instructions ↔ Finds instructions issue := by
  rw [mem_check, duplicates_eq increasing, List.mem_filterMap, mem_undefineds]
  constructor
  · rintro (⟨i, member, repeated⟩ | ⟨front, i, next, back, adjacent, found⟩)
    · exact .duplicate member repeated
    · obtain ⟨symbol, value, dest, comp, jump, loads, computes, jumps, unknown, rfl⟩ := undefined?_eq_some.mp found
      exact .undefined adjacent loads computes jumps fun known => unknown (known_declared.mpr known)
  · intro finds
    cases finds with
    | duplicate member repeated => exact .inl ⟨_, member, repeated⟩
    | undefined adjacent loads computes jumps unknown =>
      refine .inr ⟨_, _, _, _, adjacent, undefined?_eq_some.mpr ?_⟩
      exact ⟨_, _, _, _, _, loads, computes, jumps, fun known => unknown (known_declared.mp known), rfl⟩

/-! ### Order of the issues -/

theorem undefineds_lines (declared : Bindings Int) (instructions : List Instruction) :
    ((undefineds declared instructions).map (·.line)).Sublist (instructions.map (·.line)) := by
  fun_induction undefineds declared instructions with
  | case1 i next rest ih =>
    cases found : undefined? declared i next with
    | none => exact ih.cons _
    | some issue =>
      obtain ⟨_, _, _, _, _, -, -, -, -, rfl⟩ := undefined?_eq_some.mp found
      exact ih.cons_cons _
  | case2 => exact List.nil_sublist _

theorem check_perm (instructions : List Instruction) :
    (check instructions).Perm ((duplicates instructions []).1 ++ undefineds (duplicates instructions []).2 instructions) :=
  List.mergeSort_perm ..

section Lines

variable {instructions : List Instruction} (increasing : instructions.Pairwise (fun i j => i.line < j.line))

include increasing

theorem redeclarations_lines :
    (instructions.filterMap (redeclaration? instructions)).Pairwise (fun x y => x.line < y.line) := by
  apply increasing.filterMap
  intro i j before issue repeated issue' repeated'
  obtain ⟨_, _, -, -, -, rfl⟩ := redeclaration?_eq_some.mp repeated
  obtain ⟨_, _, -, -, -, rfl⟩ := redeclaration?_eq_some.mp repeated'
  exact before

/-- No two issues are about one line: a line declares a label or loads a symbol. -/
theorem lines_distinct :
    (((duplicates instructions []).1 ++ undefineds (duplicates instructions []).2 instructions).map (·.line)).Nodup := by
  have lines : (instructions.map (·.line)).Nodup := by
    apply List.pairwise_map.mpr
    exact increasing.imp fun before => Int.ne_of_lt before
  rw [List.map_append, List.nodup_append]
  refine ⟨?_, lines.sublist (undefineds_lines ..), ?_⟩
  · rw [duplicates_eq increasing]
    apply List.pairwise_map.mpr
    exact (redeclarations_lines increasing).imp fun before => Int.ne_of_lt before
  · intro line duplicate line' undefined same
    rw [duplicates_eq increasing] at duplicate
    obtain ⟨_, repeated, rfl⟩ := List.mem_map.mp duplicate
    obtain ⟨_, astray, rfl⟩ := List.mem_map.mp undefined
    obtain ⟨i, member, found⟩ := List.mem_filterMap.mp repeated
    obtain ⟨symbol, first, declares, -, -, rfl⟩ := redeclaration?_eq_some.mp found
    obtain ⟨front, j, next, back, adjacent, found'⟩ := mem_undefineds.mp astray
    obtain ⟨_, _, _, _, _, loads, -, -, -, rfl⟩ := undefined?_eq_some.mp found'
    have there : j ∈ instructions := by
      rw [adjacent]
      simp
    obtain rfl := List.inj_on_of_nodup_map lines member there same
    rw [declares] at loads
    cases loads

theorem check_lines : (check instructions).Pairwise (fun x y => x.line < y.line) := by
  have ordered : (check instructions).Pairwise (fun x y => decide (x.line ≤ y.line) = true) := by
    apply List.pairwise_mergeSort
    · intro x y z first second
      simp only [decide_eq_true_eq] at first second ⊢
      omega
    · intro x y
      simp only [Bool.or_eq_true, decide_eq_true_eq]
      omega
  have distinct : ((check instructions).map (·.line)).Nodup := by
    apply ((check_perm instructions).map _).nodup_iff.mpr
    exact lines_distinct increasing
  apply (ordered.and (List.pairwise_map.mp distinct)).imp
  intro x y both
  have le := of_decide_eq_true both.1
  have ne := both.2
  omega

theorem check_duplicates :
    (check instructions).filter (·.kind == Issue.duplicateKind) = instructions.filterMap (redeclaration? instructions) := by
  have kept : (duplicates instructions []).1.filter (·.kind == Issue.duplicateKind) = (duplicates instructions []).1 := by
    apply List.filter_eq_self.mpr
    intro issue member
    exact beq_iff_eq.mpr (duplicates_kind member)
  have dropped : (undefineds (duplicates instructions []).2 instructions).filter (·.kind == Issue.duplicateKind) = [] := by
    apply List.filter_eq_nil_iff.mpr
    intro issue member
    obtain ⟨front, i, next, back, -, found⟩ := mem_undefineds.mp member
    obtain ⟨_, _, _, _, _, -, -, -, -, rfl⟩ := undefined?_eq_some.mp found
    show ¬ (Issue.undefinedKind == Issue.duplicateKind) = true
    decide
  have perm := (check_perm instructions).filter (·.kind == Issue.duplicateKind)
  rw [List.filter_append, kept, dropped, List.append_nil, duplicates_eq increasing] at perm
  apply List.Perm.eq_of_pairwise ?_ ((check_lines increasing).filter _) (redeclarations_lines increasing) perm
  intro x y _ _ before behind
  omega

end Lines

/-! ### The loader -/

/-- A loader stops at the first duplicate of a check that has the same labels in its table. -/
theorem bindLabels_error {instructions : List Instruction} {address : Nat} {labels : Bindings Nat} {declared : Bindings Int}
    (same : ∀ symbol, (labels.lookup symbol).isSome = (declared.lookup symbol).isSome) {e : Assembly.Error} :
    bindLabels instructions address labels = .error e ↔
      ∃ issue, (duplicates instructions declared).1.head? = some issue ∧ e = .duplicateLabel issue.line issue.symbol := by
  induction instructions generalizing address labels declared with
  | nil => simp [bindLabels, duplicates]
  | cons i rest ih =>
    cases known : i.operation.label? with
    | none =>
      rw [bindLabels_code known, duplicates_code known, ← @ih (address + 1) labels declared same]
      cases bindLabels rest (address + 1) labels <;> simp
    | some name =>
      have declares := Operation.label?_eq_some.mp known
      have both := same name
      cases found : declared.lookup name with
      | some first =>
        rw [found] at both
        obtain ⟨value, used⟩ := Option.isSome_iff_exists.mp both
        rw [bindLabels_again declares used, duplicates_again declares found]
        simp [eq_comm]
      | none =>
        rw [found] at both
        have unused : labels.lookup name = none := by simpa using both
        rw [bindLabels_fresh declares unused, duplicates_fresh declares found]
        apply ih
        intro symbol
        rw [lookup_concat, lookup_concat, Option.isSome_or, Option.isSome_or, same]
        split <;> rfl

theorem load_error {source : Text} {instructions : List Instruction} (read : parse source = .ok instructions) {e : Assembly.Error} :
    Program.load source = .error e ↔
      ∃ issue, (duplicates instructions []).1.head? = some issue ∧ e = .duplicateLabel issue.line issue.symbol := by
  rw [Program.load_of_parse read, ← @bindLabels_error instructions 0 [] [] fun _ => rfl, Program.ofInstructions]
  cases bindLabels instructions 0 [] <;> simp

/-- The duplicates of a check are the declarations that are not the first of their label, in the order of their lines,
and a loader refuses a text exactly if there is one, for the first of them. A check lists everything it finds once and by
increasing lines. -/
theorem duplicates_agree {source : Text} {instructions : List Instruction} (read : parse source = .ok instructions) :
    checkText source = .ok (check instructions) ∧
      (check instructions).filter (·.kind == Issue.duplicateKind) = instructions.filterMap (redeclaration? instructions) ∧
      (∀ e, Program.load source = .error e ↔
        ∃ issue, (instructions.filterMap (redeclaration? instructions)).head? = some issue ∧
          e = .duplicateLabel issue.line issue.symbol) ∧
      (check instructions).Pairwise (fun x y => x.line < y.line) ∧
      ∀ issue, (issue ∈ check instructions ↔ Finds instructions issue) ∧ (check instructions).count issue ≤ 1 := by
  have increasing := parse_lines read
  have ordered := check_lines increasing
  refine ⟨?_, check_duplicates increasing, ?_, ordered, ?_⟩
  · rw [checkText, read]
  · intro e
    rw [load_error read, duplicates_eq increasing]
  · intro issue
    refine ⟨mem_check_iff increasing, ?_⟩
    have distinct : (check instructions).Nodup := by
      apply ordered.imp
      rintro x y before rfl
      omega
    exact List.nodup_iff_count.mp distinct issue

/-- Two labels declared over and over, around a jump to a name that nothing declares. -/
def repeating : Text := "(A)\n@x\n0;JMP\n(A)\n(B)\n// (B)\n(A)\n(B)\n"

theorem duplicates_agree_repeating :
    ∃ instructions, parse repeating = .ok instructions ∧
      (check instructions).filter (·.kind == Issue.duplicateKind) =
        [⟨.duplicate 1, "A", 4⟩, ⟨.duplicate 1, "A", 7⟩, ⟨.duplicate 5, "B", 8⟩] ∧
      Program.load repeating = .error (.duplicateLabel 4 "A") ∧ ⟨.undefined "JMP", "x", 2⟩ ∈ check instructions := by
  let instructions : List Instruction :=
    [⟨.label "A", 1, "(A)"⟩, ⟨.address "x" 0, 2, "@x"⟩, ⟨.compute [] "0" "JMP", 3, "0;JMP"⟩, ⟨.label "A", 4, "(A)"⟩,
      ⟨.label "B", 5, "(B)"⟩, ⟨.label "A", 7, "(A)"⟩, ⟨.label "B", 8, "(B)"⟩]
  have read : parse repeating = .ok instructions := by decide +kernel
  have repeated : instructions.filterMap (redeclaration? instructions) =
      [⟨.duplicate 1, "A", 4⟩, ⟨.duplicate 1, "A", 7⟩, ⟨.duplicate 5, "B", 8⟩] := by decide +kernel
  obtain ⟨-, duplicates, loads, -, listed⟩ := duplicates_agree read
  rw [repeated] at duplicates loads
  refine ⟨instructions, read, duplicates, (loads _).mpr ⟨_, rfl, rfl⟩, (listed _).1.mpr ?_⟩
  exact @Finds.undefined instructions (instructions.take 1) (instructions.drop 3) _ _ "x" 0 [] "0" "JMP" rfl rfl rfl (by decide)
    (by decide +kernel)

end HackToolchain.Lint
